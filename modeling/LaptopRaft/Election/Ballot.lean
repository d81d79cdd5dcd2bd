import LaptopRaft.Framework.Poll
import LaptopRaft.Model.Scenario
import LaptopRaft.Properties.WellFormed

/-!
# A call of `RequestVote` by itself

`RequestVote` asks the connected peers one after the other.  When they answer and nothing else
happens, the call is a `poll` of `Framework/Poll`: `opinion` is what a peer makes of the request,
and being asked does not change it (`opinion_asked`).

* `election_call`: the call ends, and exactly how.
* `can_be_elected`: a server whose log is as recent as those of its peers becomes leader when it
  stands often enough, as far as the number of peers it is connected to allows.
-/

namespace LaptopRaft

/-! ## What a voter makes of the request -/

namespace ServerMetadata

variable {md : ServerMetadata} {msg : RequestVoteMessage} {res : RequestVoteResponse}

instance (t n t' n' : ℤ) : Decidable (AsRecent t n t' n') :=
  inferInstanceAs (Decidable (_ ∨ _))

def opinion (md : ServerMetadata) (msg : RequestVoteMessage) : Opinion :=
  if msg.currentTerm < md.currentTerm then .outranks
  else if AsRecent msg.lastTerm msg.logSize (lastTerm md.smrLog) md.logSize ∧
      (md.currentTerm < msg.currentTerm ∨ md.votedFor = msg.id) then .grants
  else .refuses

lemma opinion_eq_outranks : md.opinion msg = .outranks ↔ msg.currentTerm < md.currentTerm := by
  unfold opinion
  split
  · rename_i hlt
    exact iff_of_true rfl hlt
  · rename_i hle
    refine iff_of_false ?_ hle
    split <;> simp

lemma opinion_eq_grants : md.opinion msg = .grants ↔
    AsRecent msg.lastTerm msg.logSize (lastTerm md.smrLog) md.logSize ∧
      (md.currentTerm < msg.currentTerm ∨
        (md.currentTerm = msg.currentTerm ∧ md.votedFor = msg.id)) := by
  unfold opinion
  split
  · rename_i hlt
    refine iff_of_false (by simp) ?_
    rintro ⟨-, hless | ⟨heq, -⟩⟩ <;> omega
  · rename_i hle
    split
    · rename_i hgrants
      refine iff_of_true rfl ⟨hgrants.1, ?_⟩
      rcases hgrants.2 with hless | hfor
      · exact Or.inl hless
      · rcases (not_lt.1 hle).lt_or_eq with hless | heq
        · exact Or.inl hless
        · exact Or.inr ⟨heq, hfor⟩
    · rename_i hno
      refine iff_of_false (by simp) ?_
      rintro ⟨hrecent, hless | ⟨-, hfor⟩⟩
      · exact hno ⟨hrecent, Or.inl hless⟩
      · exact hno ⟨hrecent, Or.inr hfor⟩

/-- A voter, after it has been asked. -/
def asked (md : ServerMetadata) (msg : RequestVoteMessage) : ServerMetadata :=
  (md.adoptCandidate msg).setHeartbeat true

lemma asked_of_lt (h : md.currentTerm < msg.currentTerm) :
    md.asked msg =
      { md with currentTerm := msg.currentTerm, status := .follower, voteReceived := ∅,
                votedFor := msg.id, heartbeat := true } := by
  rw [asked, adoptCandidate, if_pos h]
  rfl

lemma asked_of_le (h : msg.currentTerm ≤ md.currentTerm) :
    md.asked msg = md.setHeartbeat true := by
  rw [asked, adoptCandidate, if_neg (not_lt.2 h)]

@[simp] lemma asked_smrLog : (md.asked msg).smrLog = md.smrLog := by
  unfold asked adoptCandidate
  split <;> rfl

@[simp] lemma asked_logSize : (md.asked msg).logSize = md.logSize := by
  unfold asked adoptCandidate
  split <;> rfl

@[simp] lemma asked_commitLength : (md.asked msg).commitLength = md.commitLength := by
  unfold asked adoptCandidate
  split <;> rfl

@[simp] lemma asked_factoryId : (md.asked msg).factoryId = md.factoryId := by
  unfold asked adoptCandidate
  split <;> rfl

lemma asked_status (h : md.status = .follower) : (md.asked msg).status = .follower := by
  unfold asked adoptCandidate
  split
  · rfl
  · exact h

lemma asked_currentTerm : (md.asked msg).currentTerm = max md.currentTerm msg.currentTerm := by
  rcases lt_or_ge md.currentTerm msg.currentTerm with hlt | hle
  · rw [asked_of_lt hlt, max_eq_right hlt.le]
  · rw [asked_of_le hle, max_eq_left hle]
    rfl

/-- To be asked twice is to be asked once. -/
lemma asked_asked : (md.asked msg).asked msg = md.asked msg := by
  have hle : msg.currentTerm ≤ (md.asked msg).currentTerm := by
    rw [asked_currentTerm]
    exact le_max_right _ _
  rw [asked_of_le hle]
  rfl

/-- **Being asked does not change a voter's mind.** -/
lemma opinion_asked : (md.asked msg).opinion msg = md.opinion msg := by
  rcases lt_or_ge md.currentTerm msg.currentTerm with hlt | hle
  · rw [asked_of_lt hlt]
    simp only [opinion, lt_irrefl, if_false, false_or, and_true, hlt, true_or, if_neg hlt.not_gt]
  · rw [asked_of_le hle]
    rfl

/-- The answer that goes with an opinion. -/
structure Ballot (md : ServerMetadata) (msg : RequestVoteMessage) (res : RequestVoteResponse) :
    Prop where
  id : res.id = md.factoryId
  grants : md.opinion msg = .grants → res.currentTerm = msg.currentTerm ∧ res.voted ≠ 0
  refuses : md.opinion msg = .refuses → res.currentTerm = msg.currentTerm ∧ res.voted = 0
  outranks : md.opinion msg = .outranks → res.currentTerm = md.currentTerm

lemma getVoteResponse_asked (msg : RequestVoteMessage) (hsize : md.logSize = md.smrLog.length) :
    ∃ res, md.getVoteResponse msg = some (md.asked msg, res) ∧ Ballot md msg res := by
  have hanswer : ∃ res, md.getVoteResponse msg = some (md.asked msg, res) := by
    rw [getVoteResponse, getLastTerm_eq hsize, Option.bind_eq_bind, Option.bind_some]
    exact ⟨_, rfl⟩
  obtain ⟨res, hres⟩ := hanswer
  have hvote := getVoteResponse_cases hres
  have hgranted := hvote.granted
  have hterm := hvote.term
  rw [asked_currentTerm] at hterm hgranted
  refine ⟨res, hres, hvote.id, fun hop => ?_, fun hop => ?_, fun hop => ?_⟩
  · obtain ⟨hrecent, hcase⟩ := opinion_eq_grants.1 hop
    have hle : md.currentTerm ≤ msg.currentTerm := hcase.elim le_of_lt fun h => h.1.le
    refine ⟨by rw [hterm, max_eq_right hle], ?_⟩
    have hfor : (md.adoptCandidate msg).votedFor = msg.id ∧
        (md.adoptCandidate msg).currentTerm = msg.currentTerm := by
      unfold adoptCandidate
      rcases hcase with hlt | ⟨heq, hfor⟩
      · rw [if_pos hlt]
        exact ⟨rfl, rfl⟩
      · rw [if_neg heq.not_lt]
        exact ⟨hfor, heq⟩
    have hvalid : lastTerm md.smrLog < msg.lastTerm ∨ (msg.lastTerm = lastTerm md.smrLog ∧
        (md.adoptCandidate msg).logSize ≤ msg.logSize) := by
      rw [adoptCandidate_logSize]
      exact hrecent
    rw [getVoteResponse, getLastTerm_eq hsize, Option.bind_eq_bind, Option.bind_some] at hres
    obtain rfl := (Prod.mk.inj (Option.some.inj hres)).2
    rw [if_pos ⟨hvalid, hfor.2.symm, hfor.1⟩]
    exact one_ne_zero
  · have hle : md.currentTerm ≤ msg.currentTerm := by
      by_contra hlt
      rw [opinion_eq_outranks.2 (not_le.1 hlt)] at hop
      cases hop
    refine ⟨by rw [hterm, max_eq_right hle], ?_⟩
    by_contra hvoted
    obtain ⟨-, hfor, t, hlast, hrecent⟩ := hgranted hvoted
    rw [getLastTerm_eq hsize] at hlast
    obtain rfl := Option.some.inj hlast
    have hgrants : md.opinion msg = .grants := by
      refine opinion_eq_grants.2 ⟨hrecent, ?_⟩
      rcases hle.lt_or_eq with hlt | heq
      · exact Or.inl hlt
      · rw [asked_of_le heq.ge] at hfor
        exact Or.inr ⟨heq, hfor⟩
    rw [hop] at hgrants
    cases hgrants
  · rw [hterm, max_eq_left (opinion_eq_outranks.1 hop).le]

/-! ## What the candidate makes of the answer -/

lemma recvVoteResponse_won (hterm : md.currentTerm = res.currentTerm) (hvoted : res.voted ≠ 0)
    (hwon : { md with voteReceived := insert res.id md.voteReceived }.wonElection = true) :
    md.recvVoteResponse res =
      ({ md with voteReceived := insert res.id md.voteReceived }.initLeader, .won) := by
  rw [recvVoteResponse, if_pos ⟨hterm, hvoted⟩]
  exact if_pos hwon

lemma recvVoteResponse_counted (hterm : md.currentTerm = res.currentTerm) (hvoted : res.voted ≠ 0)
    (hmore : ¬ { md with voteReceived := insert res.id md.voteReceived }.wonElection = true) :
    md.recvVoteResponse res =
      ({ md with voteReceived := insert res.id md.voteReceived }, .next) := by
  rw [recvVoteResponse, if_pos ⟨hterm, hvoted⟩]
  exact if_neg hmore

lemma recvVoteResponse_refused (hterm : md.currentTerm = res.currentTerm) (hvoted : res.voted = 0) :
    md.recvVoteResponse res = (md, .next) := by
  rw [recvVoteResponse, if_neg fun h => h.2 hvoted, if_neg hterm.not_lt]

lemma recvVoteResponse_outranked (hterm : md.currentTerm < res.currentTerm) :
    md.recvVoteResponse res =
      ({ md with currentTerm := res.currentTerm, status := .follower, votedFor := -1,
                 voteReceived := ∅ }, .demoted) := by
  rw [recvVoteResponse, if_neg fun h => hterm.ne h.1, if_pos hterm]

end ServerMetadata

namespace LaptopFactory

variable {f : LaptopFactory} {md : ServerMetadata} {rest : List ServerNode}
  {res : RequestVoteResponse} {outcome : ServerMetadata.VoteOutcome}

lemma countVote_next (h : f.metadata.recvVoteResponse res = (md, .next)) :
    f.countVote rest res =
      { f with metadata := md, metaLock := .requestVote rest, wire := .quiet } := by
  rw [countVote, h]

lemma countVote_over (h : f.metadata.recvVoteResponse res = (md, outcome))
    (hover : outcome ≠ .next) :
    f.countVote rest res =
      { f with metadata := md, metaLock := .free, wire := .quiet, timeoutThread := .top } := by
  rw [countVote, h]
  cases outcome with
  | won | demoted => rfl
  | next => exact absurd rfl hover

end LaptopFactory

open ServerMetadata

/-! ## One round -/

namespace Cluster

variable (c : Cluster) (s : ℤ)

/-- The next peer is sent the request and answers, and the candidate reacts. -/
def ask : Option Cluster := do
  let sent ← c.act (.sendRequestVote s)
  let answered ← sent.1.act (.handle s)
  let received ← answered.1.act (.recvVoteResponse s)
  some received.1

/-- One iteration of the loop of `RequestVote`, or the end of it. -/
def voteStep : Option Cluster :=
  match (c.server s).metaLock with
  | .requestVote (_ :: _) => c.ask s
  | .requestVote [] => (c.act (.endRequestVote s)).map (·.1)
  | _ => none

end Cluster

/-- The call of `RequestVote` by `s` leads from one state to another. -/
def VoteCallTo (s : ℤ) : Cluster → Cluster → Prop :=
  Relation.ReflTransGen fun c c' => c.voteStep s = some c'

/-- No connection fails, and none that failed is read from. -/
def Unbroken (_ : Cluster) : Label → Prop
  | .voteLinkFails .. | .logLinkFails .. | .handleGarbage .. => False
  | _ => True

section Round

variable {cfg : Config} {s : ℤ} {c c' : Cluster} {node : ServerNode} {nodes rest : List ServerNode}
  {msg : RequestVoteMessage} {res : RequestVoteResponse} {md : ServerMetadata}

/-- A step of a thread of `s`. -/
lemma path_of_act {ok : Cluster → Label → Prop} (hs : s ∈ cfg.ids) {l : Label}
    (hactor : l.actor = some s) (hok : ok c l) {es tr : List Event}
    (hact : c.act l = some (c', es)) : (system cfg).Path ok (c, tr) (c', tr ++ es) := by
  refine .single ⟨l, es, hok, ?_, rfl⟩
  change (if ∀ q ∈ l.actor, q ∈ cfg.ids then c.act l else none) = _
  rw [hactor, if_pos (by simpa using hs)]
  exact hact

lemma path_of_voteCallTo (hs : s ∈ cfg.ids) (h : VoteCallTo s c c') (tr : List Event) :
    ∃ tr', (system cfg).Path Unbroken (c, tr) (c', tr') := by
  induction h with
  | refl => exact ⟨tr, .refl⟩
  | @tail c₁ c₂ _ hst ih =>
      obtain ⟨tr₁, hpath⟩ := ih
      unfold Cluster.voteStep at hst
      split at hst
      · simp only [Cluster.ask, Option.bind_eq_bind, Option.bind_eq_some_iff,
          Option.some.injEq] at hst
        obtain ⟨⟨a, es⟩, ha, ⟨b, es'⟩, hb, ⟨d, es''⟩, hd, rfl⟩ := hst
        have hsent := hpath.trans (path_of_act hs rfl trivial ha)
        have hanswered := hsent.trans (path_of_act hs rfl trivial hb)
        exact ⟨_, hanswered.trans (path_of_act hs rfl trivial hd)⟩
      · obtain ⟨⟨a, es⟩, ha, rfl⟩ := Option.map_eq_some_iff.1 hst
        exact ⟨_, hpath.trans (path_of_act hs rfl trivial ha)⟩
      · cases hst

/-- The three steps of a round, run one after the other. -/
lemma ask_eq (hlock : (c.server s).metaLock = .requestVote (node :: rest))
    (hquiet : (c.server s).wire = .quiet) (hlink : c.link s node.id = true)
    (hfree : (c.server node.id).metaLock = .free)
    (hmsg : (c.server s).metadata.sendRequestVote = some msg)
    (hanswer : (c.server node.id).metadata.getVoteResponse msg = some (md, res)) :
    ∃ c', c.voteStep s = some c' ∧ c'.server s = (c.server s).countVote rest res ∧
      c'.server node.id = { c.server node.id with metadata := md } ∧
      (∀ q, q ≠ s → q ≠ node.id → c'.server q = c.server q) ∧ c'.link = c.link := by
  have hne : node.id ≠ s := by
    rintro heq
    rw [heq, hlock] at hfree
    cases hfree
  let c₁ := c.setServer s { c.server s with wire := .request node (.vote msg) }
  let c₂ := (c₁.setServer node.id { c.server node.id with metadata := md }).setServer s
    { c.server s with wire := .response (.vote res) }
  have hserver₁ : c₁.server = Function.update c.server s
      { c.server s with wire := .request node (.vote msg) } := rfl
  have hserver₂ : c₂.server = Function.update (Function.update c₁.server node.id
      { c.server node.id with metadata := md }) s
      { c.server s with wire := .response (.vote res) } := rfl
  have hsent : c.act (.sendRequestVote s) = some (c₁, []) := by
    have hup : c.linkUp s = true := by simpa [Cluster.linkUp, LaptopFactory.callee, hlock]
    have hbuild : (c.server s).sendRequestVote =
        some { c.server s with wire := .request node (.vote msg) } := by
      simp only [LaptopFactory.sendRequestVote, hlock, hquiet, hmsg, Option.map_some]
    rw [Cluster.act, if_pos hup, Cluster.move, hbuild]
    rfl
  have hhandled : ∃ es, c₁.act (.handle s) = some (c₂, es) := by
    have hwire : (c₁.server s).wire = .request node (.vote msg) := by
      rw [hserver₁, Function.update_self]
    have hpeer : c₁.server node.id = c.server node.id := by
      rw [hserver₁, Function.update_of_ne hne]
    have hserve : (c₁.server node.id).serve (.vote msg) =
        some ({ c.server node.id with metadata := md }, .vote res) := by
      rw [hpeer, LaptopFactory.serve, if_pos hfree, hanswer]
      rfl
    have hself : (c₁.setServer node.id { c.server node.id with metadata := md }).server s =
        { c.server s with wire := .request node (.vote msg) } := by
      change Function.update c₁.server node.id _ s = _
      rw [Function.update_of_ne hne.symm, hserver₁, Function.update_self]
    refine ⟨serveEvents node.id (c₁.server node.id).metadata.smrLog (.vote msg) (.vote res), ?_⟩
    rw [Cluster.act, Cluster.handle, hwire]
    simp only [Cluster.serveAt, hserve, Option.map_some, Cluster.setWire, hself]
    rfl
  have hreceived : ∃ es, c₂.act (.recvVoteResponse s) =
      some (c₂.setServer s ((c.server s).countVote rest res), es) := by
    have hself : c₂.server s = { c.server s with wire := .response (.vote res) } := by
      rw [hserver₂, Function.update_self]
    have hcount : ({ c.server s with wire := .response (.vote res) } :
        LaptopFactory).recvVoteResponse = some ((c.server s).countVote rest res) := by
      simp only [LaptopFactory.recvVoteResponse, hlock, LaptopFactory.countVote]
    refine ⟨electionEvents s (c.server s).metadata res, ?_⟩
    rw [Cluster.act, hself]
    simp only [Cluster.move, hcount, Option.map_some]
  obtain ⟨es₂, hhandled⟩ := hhandled
  obtain ⟨es₃, hreceived⟩ := hreceived
  have hserver : (c₂.setServer s ((c.server s).countVote rest res)).server =
      Function.update c₂.server s ((c.server s).countVote rest res) := rfl
  refine ⟨c₂.setServer s ((c.server s).countVote rest res), ?_, ?_, ?_, fun q hq hq' => ?_, rfl⟩
  · simp only [Cluster.voteStep, hlock, Cluster.ask, hsent, hhandled, hreceived,
      Option.bind_eq_bind, Option.bind_some]
  · rw [hserver, Function.update_self]
  · rw [hserver, Function.update_of_ne hne, hserver₂, Function.update_of_ne hne,
      Function.update_self]
  · rw [hserver, Function.update_of_ne hq, hserver₂, Function.update_of_ne hq,
      Function.update_of_ne hq', hserver₁, Function.update_of_ne hq]

end Round

/-! ## The whole call -/

/-- A call of `RequestVote` by `s` that has `nodes` still to ask, who will answer. -/
structure Polling (cfg : Config) (s : ℤ) (msg : RequestVoteMessage) (nodes : List ServerNode)
    (c : Cluster) : Prop where
  lock : (c.server s).metaLock = .requestVote nodes
  quiet : (c.server s).wire = .quiet
  request : (c.server s).metadata.sendRequestVote = some msg
  link : ∀ node ∈ nodes, c.link s node.id = true
  free : ∀ node ∈ nodes, (c.server node.id).metaLock = .free
  sized : ∀ node ∈ nodes,
    (c.server node.id).metadata.logSize = (c.server node.id).metadata.smrLog.length
  known : ∀ node ∈ nodes, (c.server node.id).metadata.factoryId = node.id

/-- Who is asked, and what they think of it. -/
def Cluster.opinions (c : Cluster) (msg : RequestVoteMessage) (id : ℤ) : Opinion :=
  (c.server id).metadata.opinion msg

/-- `WonElection`. -/
def enoughVotes (peers : ℕ) (votes : Finset ℤ) : Prop := peers ≤ votes.card * 2

instance (peers : ℕ) : DecidablePred (enoughVotes peers) :=
  fun votes => inferInstanceAs (Decidable (peers ≤ votes.card * 2))

def Cluster.pollOf (c : Cluster) (s : ℤ) (msg : RequestVoteMessage) (nodes : List ServerNode) :
    PollResult ℤ :=
  poll (enoughVotes (c.server s).metadata.getPeerSize) (c.opinions msg) (nodes.map ServerNode.id)
    (c.server s).metadata.voteReceived

/-- What the result of the poll makes of a candidate. -/
def Cluster.afterPoll (c : Cluster) (md : ServerMetadata) : PollResult ℤ → ServerMetadata
  | .won votes => { md with voteReceived := votes }.initLeader
  | .lost v =>
      { md with currentTerm := (c.server v).metadata.currentTerm, status := .follower,
                votedFor := -1, voteReceived := ∅ }
  | .undecided votes => { md with voteReceived := votes }

/-- The state in which a call ends, in terms of the one in which it begins. -/
structure PollEnds (s : ℤ) (msg : RequestVoteMessage) (nodes : List ServerNode) (c c' : Cluster) :
    Prop where
  caller : c'.server s =
    { c.server s with
      metadata := c.afterPoll (c.server s).metadata (c.pollOf s msg nodes)
      metaLock := .free
      wire := .quiet
      timeoutThread := .top }
  others : ∀ q, q ≠ s → c'.server q = c.server q ∨
    (q ∈ nodes.map ServerNode.id ∧
      c'.server q = { c.server q with metadata := (c.server q).metadata.asked msg })
  link : c'.link = c.link

section Call

variable {cfg : Config} {s : ℤ} {c c₁ c' : Cluster} {node : ServerNode}
  {nodes rest : List ServerNode} {msg : RequestVoteMessage} {res : RequestVoteResponse}
  {md : ServerMetadata}

lemma Polling.term (h : Polling cfg s msg nodes c) :
    msg.currentTerm = (c.server s).metadata.currentTerm := by
  obtain ⟨t, -, rfl⟩ := Option.map_eq_some_iff.1 h.request
  rfl

/-- The state after a round that does not end the call. -/
structure Round (s : ℤ) (msg : RequestVoteMessage) (node : ServerNode) (rest : List ServerNode)
    (votes : Finset ℤ) (c c₁ : Cluster) : Prop where
  caller : c₁.server s =
    { c.server s with
      metadata := { (c.server s).metadata with voteReceived := votes }
      metaLock := .requestVote rest
      wire := .quiet }
  callee : c₁.server node.id =
    { c.server node.id with metadata := (c.server node.id).metadata.asked msg }
  others : ∀ q, q ≠ s → q ≠ node.id → c₁.server q = c.server q
  link : c₁.link = c.link

lemma Round.server {votes : Finset ℤ} (h : Round s msg node rest votes c c₁) {q : ℤ} (hq : q ≠ s) :
    c₁.server q = c.server q ∨
      (q = node.id ∧ c₁.server q = { c.server q with metadata := (c.server q).metadata.asked msg })
    := by
  by_cases hqn : q = node.id
  · subst hqn
    exact Or.inr ⟨rfl, h.callee⟩
  · exact Or.inl (h.others q hq hqn)

lemma Round.opinions {votes : Finset ℤ} (h : Round s msg node rest votes c c₁) {q : ℤ}
    (hq : q ≠ s) : c₁.opinions msg q = c.opinions msg q := by
  rcases h.server hq with hsame | ⟨-, hasked⟩
  · rw [Cluster.opinions, hsame, Cluster.opinions]
  · rw [Cluster.opinions, hasked, Cluster.opinions]
    exact opinion_asked

lemma Polling.ne (h : Polling cfg s msg nodes c) (hnode : node ∈ nodes) : node.id ≠ s := by
  rintro rfl
  have hfree := h.free node hnode
  rw [h.lock] at hfree
  cases hfree

lemma Polling.next (h : Polling cfg s msg (node :: rest) c) {votes : Finset ℤ}
    (hround : Round s msg node rest votes c c₁) : Polling cfg s msg rest c₁ := by
  have hmem : ∀ x ∈ rest, x ∈ node :: rest := fun x hx => List.mem_cons_of_mem _ hx
  refine ⟨?_, ?_, ?_, fun x hx => ?_, fun x hx => ?_, fun x hx => ?_, fun x hx => ?_⟩
  · rw [hround.caller]
  · rw [hround.caller]
  · rw [hround.caller]
    exact h.request
  · rw [hround.link]
    exact h.link x (hmem x hx)
  · rcases hround.server (h.ne (hmem x hx)) with hsame | ⟨-, hasked⟩
    · rw [hsame]
      exact h.free x (hmem x hx)
    · rw [hasked]
      exact h.free x (hmem x hx)
  · rcases hround.server (h.ne (hmem x hx)) with hsame | ⟨-, hasked⟩
    · rw [hsame]
      exact h.sized x (hmem x hx)
    · rw [hasked, asked_logSize, asked_smrLog]
      exact h.sized x (hmem x hx)
  · rcases hround.server (h.ne (hmem x hx)) with hsame | ⟨-, hasked⟩
    · rw [hsame]
      exact h.known x (hmem x hx)
    · rw [hasked, asked_factoryId]
      exact h.known x (hmem x hx)

/-- What the rest of the call makes of the candidate, seen from before the round. -/
lemma Round.afterPoll {votes : Finset ℤ} (h : Round s msg node rest votes c c₁)
    (hne : ∀ x ∈ rest, x.id ≠ s) :
    c₁.afterPoll (c₁.server s).metadata (c₁.pollOf s msg rest) =
      c.afterPoll (c.server s).metadata
        (poll (enoughVotes (c.server s).metadata.getPeerSize) (c.opinions msg)
          (rest.map ServerNode.id) votes) := by
  have hids : ∀ q ∈ rest.map ServerNode.id, q ≠ s := by
    intro q hq
    obtain ⟨x, hx, rfl⟩ := List.mem_map.1 hq
    exact hne x hx
  have hpoll : c₁.pollOf s msg rest =
      poll (enoughVotes (c.server s).metadata.getPeerSize) (c.opinions msg)
        (rest.map ServerNode.id) votes := by
    rw [Cluster.pollOf, h.caller]
    exact poll_congr fun q hq => h.opinions (hids q hq)
  rw [hpoll, h.caller]
  cases hresult : poll (enoughVotes (c.server s).metadata.getPeerSize) (c.opinions msg)
      (rest.map ServerNode.id) votes with
  | won | undecided => rfl
  | lost v =>
      obtain ⟨hv, houtranks⟩ := poll_lost hresult
      have hterm : (c₁.server v).metadata.currentTerm = (c.server v).metadata.currentTerm := by
        rcases h.server (hids v hv) with hsame | ⟨-, hasked⟩
        · rw [hsame]
        · rw [hasked, asked_of_le (opinion_eq_outranks.1 houtranks).le]
          rfl
      simp only [Cluster.afterPoll, hterm]

/-- A round, and the rest of the call. -/
lemma Round.ends {votes : Finset ℤ} (h : Round s msg node rest votes c c₁)
    (hne : ∀ x ∈ node :: rest, x.id ≠ s) (hends : PollEnds s msg rest c₁ c')
    (hpoll : c.pollOf s msg (node :: rest) =
      poll (enoughVotes (c.server s).metadata.getPeerSize) (c.opinions msg)
        (rest.map ServerNode.id) votes) :
    PollEnds s msg (node :: rest) c c' := by
  constructor
  · rw [hends.caller, h.afterPoll fun x hx => hne x (List.mem_cons_of_mem _ hx), ← hpoll, h.caller]
  · intro q hq
    rcases hends.others q hq with hsame | ⟨hin, hasked⟩
    · rw [hsame]
      refine (h.server hq).imp_right fun ⟨hqn, hasked⟩ => ⟨?_, hasked⟩
      rw [hqn]
      exact List.mem_cons_self
    · refine Or.inr ⟨List.mem_cons_of_mem _ hin, ?_⟩
      rw [hasked]
      rcases h.server hq with hsame | ⟨-, hasked₁⟩
      · rw [hsame]
      · rw [hasked₁, asked_asked]
  · rw [hends.link, h.link]

/-- **The call is a poll.** -/
theorem Polling.ends (h : Polling cfg s msg nodes c) :
    ∃ c', VoteCallTo s c c' ∧ PollEnds s msg nodes c c' := by
  induction nodes generalizing c with
  | nil =>
      have hself : c.server s = { c.server s with wire := .quiet } := by rw [← h.quiet]
      have hend : c.voteStep s =
          some (c.setServer s { c.server s with metaLock := .free, timeoutThread := .top }) := by
        simp only [Cluster.voteStep, h.lock, Cluster.act, Cluster.move,
          LaptopFactory.endRequestVote, Option.map_some]
      refine ⟨_, .single hend, ?_, fun q hq => Or.inl (Function.update_of_ne hq _ _), rfl⟩
      change Function.update c.server s _ s = _
      rw [Function.update_self, hself]
      rfl
  | cons node rest ih =>
      have hne : ∀ x ∈ node :: rest, x.id ≠ s := fun x hx => h.ne hx
      obtain ⟨res, hanswer, hballot⟩ := getVoteResponse_asked msg
        (h.sized node List.mem_cons_self)
      obtain ⟨c₁, hst, hcaller, hcallee, hothers, hlink⟩ := ask_eq h.lock h.quiet
        (h.link node List.mem_cons_self) (h.free node List.mem_cons_self) h.request hanswer
      have hid : res.id = node.id := hballot.id.trans (h.known node List.mem_cons_self)
      have hmsg := h.term
      -- the call goes on after the round
      have hgoOn : ∀ votes, Round s msg node rest votes c c₁ →
          c.pollOf s msg (node :: rest) =
            poll (enoughVotes (c.server s).metadata.getPeerSize) (c.opinions msg)
              (rest.map ServerNode.id) votes →
          ∃ c', VoteCallTo s c c' ∧ PollEnds s msg (node :: rest) c c' := by
        intro votes hround hpoll
        obtain ⟨c', hcall, hends⟩ := ih (h.next hround)
        exact ⟨c', .head hst hcall, hround.ends hne hends hpoll⟩
      -- or the round ends it
      have hstop : c₁.server s =
          { c.server s with
            metadata := c.afterPoll (c.server s).metadata (c.pollOf s msg (node :: rest))
            metaLock := .free
            wire := .quiet
            timeoutThread := .top } →
          ∃ c', VoteCallTo s c c' ∧ PollEnds s msg (node :: rest) c c' := by
        intro hcaller
        refine ⟨c₁, .single hst, hcaller, fun q hq => ?_, hlink⟩
        by_cases hqn : q = node.id
        · subst hqn
          exact Or.inr ⟨List.mem_cons_self, hcallee⟩
        · exact Or.inl (hothers q hq hqn)
      cases hop : c.opinions msg node.id with
      | grants =>
          obtain ⟨hterm, hvoted⟩ := hballot.grants hop
          have hsame := hmsg.symm.trans hterm.symm
          by_cases hwon : enoughVotes (c.server s).metadata.getPeerSize
              (insert node.id (c.server s).metadata.voteReceived)
          · refine hstop ?_
            have hresult : c.pollOf s msg (node :: rest) =
                .won (insert node.id (c.server s).metadata.voteReceived) := poll_won_here hop hwon
            have hrecv := recvVoteResponse_won hsame hvoted (by rw [hid]; exact decide_eq_true hwon)
            rw [hresult, hcaller, LaptopFactory.countVote_over hrecv (by simp), hid]
            rfl
          · refine hgoOn _ ⟨?_, hcallee, hothers, hlink⟩ (poll_counted hop hwon)
            have hrecv := recvVoteResponse_counted hsame hvoted
              (by rw [hid]; exact fun helected => hwon (of_decide_eq_true helected))
            rw [hcaller, LaptopFactory.countVote_next hrecv, hid]
      | refuses =>
          obtain ⟨hterm, hvoted⟩ := hballot.refuses hop
          refine hgoOn _ ⟨?_, hcallee, hothers, hlink⟩ (poll_refused hop)
          have hrecv := recvVoteResponse_refused (hmsg.symm.trans hterm.symm) hvoted
          rw [hcaller, LaptopFactory.countVote_next hrecv]
      | outranks =>
          have hterm := hballot.outranks hop
          have hlt := opinion_eq_outranks.1 hop
          rw [← hterm, hmsg] at hlt
          refine hstop ?_
          have hresult : c.pollOf s msg (node :: rest) = .lost node.id := poll_outranked hop
          rw [hresult, hcaller,
            LaptopFactory.countVote_over (recvVoteResponse_outranked hlt) (by simp), hterm]
          rfl

end Call

/-! ## Runs -/

/-- A reachable state in which `TimeoutThread` of `s` is about to enter `RequestVote`, and the peers
that `s` is connected to will answer. -/
structure AboutToStand (cfg : Config) (c : Cluster) (tr : List Event) (s : ℤ) : Prop where
  run : (system cfg).Run TransitionSystem.anyStep c tr
  mem : s ∈ cfg.ids
  thread : (c.server s).timeoutThread = .branch .candidate
  free : (c.server s).metaLock = .free
  link : ∀ node ∈ (c.server s).metadata.nodeSocket, c.link s node.id = true
  answers : ∀ node ∈ (c.server s).metadata.nodeSocket, (c.server node.id).metaLock = .free

/-- The request of a server that stands. -/
def ballotOf (md : ServerMetadata) : RequestVoteMessage :=
  ⟨md.factoryId, md.currentTerm + 1, md.smrLog.length, lastTerm md.smrLog⟩

/-- The poll among the peers that `s` is connected to. -/
def Cluster.election (c : Cluster) (s : ℤ) : PollResult ℤ :=
  poll (enoughVotes (c.server s).metadata.getPeerSize)
    (c.opinions (ballotOf (c.server s).metadata))
    ((c.server s).metadata.nodeSocket.map ServerNode.id)
    (insert (c.server s).metadata.factoryId (c.server s).metadata.voteReceived)

/-- The connected peers, up to one that grants its vote, are of no higher term and give enough votes
with those `s` has. -/
def Carries (c : Cluster) (s : ℤ) : Prop :=
  CarriedBy (enoughVotes (c.server s).metadata.getPeerSize)
    (c.opinions (ballotOf (c.server s).metadata))
    ((c.server s).metadata.nodeSocket.map ServerNode.id)
    (insert (c.server s).metadata.factoryId (c.server s).metadata.voteReceived)

/-- Some connected peer is ahead of the term `s` stands in. -/
def Outranked (c : Cluster) (s : ℤ) : Prop :=
  ∃ node ∈ (c.server s).metadata.nodeSocket,
    (c.server s).metadata.currentTerm + 1 < (c.server node.id).metadata.currentTerm

/-- The state a call of `RequestVote` by itself ends in. -/
structure CallEnds (s : ℤ) (c c' : Cluster) : Prop where
  call : ∃ c₁ es, c.act (.requestVote s) = some (c₁, es) ∧ VoteCallTo s c₁ c'
  caller : c'.server s =
    { c.server s with
      metadata := c.afterPoll (c.server s).metadata.requestVote (c.election s)
      metaLock := .free
      wire := .quiet
      timeoutThread := .top }
  others : ∀ q, q ≠ s → c'.server q = c.server q ∨
    (q ∈ (c.server s).metadata.nodeSocket.map ServerNode.id ∧ c'.server q =
      { c.server q with
        metadata := (c.server q).metadata.asked (ballotOf (c.server s).metadata) })
  link : c'.link = c.link

section Runs

variable {cfg : Config} {c c₁ c' : Cluster} {tr : List Event} {s : ℤ}

lemma outranked_iff : Outranked c s ↔
    ∃ q ∈ (c.server s).metadata.nodeSocket.map ServerNode.id,
      c.opinions (ballotOf (c.server s).metadata) q = .outranks := by
  constructor
  · rintro ⟨node, hnode, hlt⟩
    exact ⟨node.id, List.mem_map_of_mem hnode, opinion_eq_outranks.2 hlt⟩
  · rintro ⟨q, hq, houtranks⟩
    obtain ⟨node, hnode, rfl⟩ := List.mem_map.1 hq
    exact ⟨node, hnode, opinion_eq_outranks.1 houtranks⟩

lemma AboutToStand.ne (h : AboutToStand cfg c tr s) {q : ℤ}
    (hq : q ∈ (c.server s).metadata.nodeSocket.map ServerNode.id) : q ∈ cfg.ids ∧ q ≠ s := by
  obtain ⟨node, hnode, rfl⟩ := List.mem_map.1 hq
  have hin := (wellFormed h.run h.mem).placed.nodeSocket node hnode
  exact (cfg.mem_peers s h.mem node.id).1 (List.mem_map_of_mem hin)

/-- A call that has just been entered. -/
lemma AboutToStand.polling (h : AboutToStand cfg c tr s) (hcaller : c₁.server s =
      { c.server s with
        metadata := (c.server s).metadata.requestVote
        metaLock := .requestVote (c.server s).metadata.nodeSocket })
    (hothers : ∀ q, q ≠ s → c₁.server q = c.server q) (hlink : c₁.link = c.link) :
    Polling cfg s (ballotOf (c.server s).metadata) (c.server s).metadata.nodeSocket c₁ := by
  have hpeer : ∀ node ∈ (c.server s).metadata.nodeSocket, node.id ∈ cfg.ids ∧ node.id ≠ s :=
    fun node hnode => h.ne (List.mem_map_of_mem hnode)
  refine ⟨?_, ?_, ?_, fun node hnode => ?_, fun node hnode => ?_, fun node hnode => ?_,
    fun node hnode => ?_⟩
  · rw [hcaller]
  · rw [hcaller]
    exact (idle_of_run h.run s).quiet h.free
  · rw [hcaller]
    exact sendRequestVote_eq (wellFormed h.run h.mem).sound.stored.logSize
  · rw [hlink]
    exact h.link node hnode
  · rw [hothers _ (hpeer node hnode).2]
    exact h.answers node hnode
  · rw [hothers _ (hpeer node hnode).2]
    exact (wellFormed h.run (hpeer node hnode).1).sound.stored.logSize
  · rw [hothers _ (hpeer node hnode).2]
    exact (wellFormed h.run (hpeer node hnode).1).placed.factoryId

lemma AboutToStand.callEnds (h : AboutToStand cfg c tr s) : ∃ c', CallEnds s c c' := by
  have henter : (c.server s).requestVote = some
      { c.server s with
        metadata := (c.server s).metadata.requestVote
        metaLock := .requestVote (c.server s).metadata.nodeSocket } :=
    if_pos ⟨h.thread, h.free⟩
  obtain ⟨c₁, es, hact, hcaller, hothers, hlink⟩ : ∃ c₁ es,
      c.act (.requestVote s) = some (c₁, es) ∧ c₁.server s =
        { c.server s with
          metadata := (c.server s).metadata.requestVote
          metaLock := .requestVote (c.server s).metadata.nodeSocket } ∧
      (∀ q, q ≠ s → c₁.server q = c.server q) ∧ c₁.link = c.link := by
    refine ⟨c.setServer s _, standEvents s (c.server s).metadata.requestVote, ?_,
      Function.update_self _ _ _, fun q hq => Function.update_of_ne hq _ _, rfl⟩
    rw [Cluster.act, Cluster.move, henter, Option.map_some]
  obtain ⟨c', hcall, hends⟩ := (h.polling hcaller hothers hlink).ends
  have hresult : c₁.pollOf s (ballotOf (c.server s).metadata) (c.server s).metadata.nodeSocket =
      c.election s := by
    rw [Cluster.pollOf, hcaller]
    refine poll_congr fun q hq => ?_
    rw [Cluster.opinions, hothers q (h.ne hq).2, Cluster.opinions]
  have hself := hends.caller
  rw [hresult, hcaller] at hself
  refine ⟨c', ⟨c₁, es, hact, hcall⟩, ?_, fun q hq => ?_, hends.link.trans hlink⟩
  · have hafter : c₁.afterPoll (c.server s).metadata.requestVote (c.election s) =
        c.afterPoll (c.server s).metadata.requestVote (c.election s) := by
      cases hpoll : c.election s with
      | won | undecided => rfl
      | lost v => simp only [Cluster.afterPoll, hothers v (h.ne (poll_lost hpoll).1).2]
    rw [hself, ← hafter]
  · have hother := hends.others q hq
    rwa [hothers q hq] at hother

/-- Nobody's log is touched. -/
lemma CallEnds.log (h : CallEnds s c c') (q : ℤ) :
    (c'.server q).metadata.smrLog = (c.server q).metadata.smrLog ∧
      (c'.server q).metadata.commitLength = (c.server q).metadata.commitLength := by
  by_cases hq : q = s
  · subst hq
    rw [h.caller]
    cases c.election q <;> exact ⟨rfl, rfl⟩
  · rcases h.others q hq with hsame | ⟨-, hasked⟩
    · rw [hsame]
      exact ⟨rfl, rfl⟩
    · rw [hasked]
      exact ⟨asked_smrLog, asked_commitLength⟩

/-- **An election call**, undisturbed, ends.  The server leads if it carries the peers up to some
point; otherwise it follows if one of them is ahead of its term, whose term it adopts; otherwise
nothing is decided. -/
theorem election_call (h : AboutToStand cfg c tr s) :
    ∃ c', CallEnds s c c' ∧
      ((c'.server s).metadata.status = .leader ↔ Carries c s) ∧
      (Carries c s → (c'.server s).metadata.currentTerm = (c.server s).metadata.currentTerm + 1) ∧
      (¬ Carries c s → Outranked c s → (c'.server s).metadata.status = .follower ∧
        ∃ node ∈ (c.server s).metadata.nodeSocket,
          (c.server s).metadata.currentTerm + 1 < (c.server node.id).metadata.currentTerm ∧
          (c'.server s).metadata.currentTerm = (c.server node.id).metadata.currentTerm) ∧
      (¬ Carries c s → ¬ Outranked c s →
        (c'.server s).metadata.status = (c.server s).metadata.status ∧
        (c'.server s).metadata.currentTerm = (c.server s).metadata.currentTerm + 1) := by
  have hcandidate := (wellFormed h.run h.mem).flow.candidate h.thread
  obtain ⟨c', hends⟩ := h.callEnds
  have hmetadata := congrArg LaptopFactory.metadata hends.caller
  change (c'.server s).metadata = c.afterPoll _ (c.election s) at hmetadata
  have hwon : (∃ votes, c.election s = .won votes) ↔ Carries c s := poll_won_iff
  refine ⟨c', hends, ?_⟩
  rw [hmetadata]
  cases hresult : c.election s with
  | won votes =>
      have hcarries : Carries c s := hwon.1 ⟨votes, hresult⟩
      exact ⟨iff_of_true rfl hcarries, fun _ => rfl, fun hno => absurd hcarries hno,
        fun hno => absurd hcarries hno⟩
  | lost v =>
      obtain ⟨hv, houtranks⟩ := poll_lost hresult
      have hno : ¬ Carries c s := fun hcarries => by
        obtain ⟨votes, hvotes⟩ := hwon.2 hcarries
        rw [hresult] at hvotes
        cases hvotes
      obtain ⟨node, hnode, rfl⟩ := List.mem_map.1 hv
      exact ⟨iff_of_false (by simp [Cluster.afterPoll]) hno, fun hcarries => absurd hcarries hno,
        fun _ _ => ⟨rfl, node, hnode, opinion_eq_outranks.1 houtranks, rfl⟩,
        fun _ hnone => absurd (outranked_iff.2 ⟨_, hv, houtranks⟩) hnone⟩
  | undecided votes =>
      obtain ⟨hnone, -⟩ := poll_undecided hresult
      have hno : ¬ Carries c s := fun hcarries => by
        obtain ⟨votes', hvotes⟩ := hwon.2 hcarries
        rw [hresult] at hvotes
        cases hvotes
      refine ⟨iff_of_false hcandidate hno, fun hcarries => absurd hcarries hno,
        fun _ houtranked => ?_, fun _ _ => ⟨rfl, rfl⟩⟩
      obtain ⟨q, hq, houtranks⟩ := outranked_iff.1 houtranked
      exact absurd houtranks (hnone q hq)

end Runs

/-! ## Standing until elected -/

/-- A reachable state in which `s` does not lead and its `TimeoutThread` is at the head of its loop.
The peers it is connected to will answer, are enough for an election, and have no more recent
log. -/
structure CanStand (cfg : Config) (c : Cluster) (tr : List Event) (s : ℤ) : Prop where
  run : (system cfg).Run TransitionSystem.anyStep c tr
  mem : s ∈ cfg.ids
  thread : (c.server s).timeoutThread = .top
  free : (c.server s).metaLock = .free
  status : (c.server s).metadata.status ≠ .leader
  link : ∀ node ∈ (c.server s).metadata.nodeSocket, c.link s node.id = true
  answers : ∀ node ∈ (c.server s).metadata.nodeSocket, (c.server node.id).metaLock = .free
  connected : (c.server s).metadata.nodeSocket ≠ []
  enough : enoughVotes (c.server s).metadata.getPeerSize
    (insert s ((c.server s).metadata.nodeSocket.map ServerNode.id).toFinset)
  recent : ∀ node ∈ (c.server s).metadata.nodeSocket,
    AsRecent (lastTerm (c.server s).metadata.smrLog) (c.server s).metadata.smrLog.length
      (lastTerm (c.server node.id).metadata.smrLog) (c.server node.id).metadata.logSize

section Stand

variable {cfg : Config} {c c' : Cluster} {tr : List Event} {s : ℤ} {f : LaptopFactory}

lemma path_readStatus (c : Cluster) (tr : List Event) (hs : s ∈ cfg.ids)
    (hthread : f.timeoutThread = .top) :
    (system cfg).Path Unbroken (c.setServer s f, tr)
      (c.setServer s { f with timeoutThread := .branch f.metadata.status }, tr ++ []) := by
  refine path_of_act hs (l := .readStatus s) rfl trivial ?_
  have hself : (c.setServer s f).server s = f := Function.update_self _ _ _
  rw [Cluster.act, Cluster.move, hself, LaptopFactory.readStatus, if_pos hthread, Option.map_some,
    Cluster.setServer, Cluster.setServer, Function.update_idem]
  rfl

lemma path_testHeartbeat (c : Cluster) (tr : List Event) (hs : s ∈ cfg.ids)
    (hthread : f.timeoutThread = .branch .follower) (hfree : f.metaLock = .free) :
    (system cfg).Path Unbroken (c.setServer s f, tr)
      (c.setServer s
        { f with
          metadata := if f.metadata.heartbeat then f.metadata.setHeartbeat false
            else f.metadata.setStatus .candidate
          timeoutThread := .top }, tr ++ []) := by
  refine path_of_act hs (l := .testHeartbeat s) rfl trivial ?_
  have hself : (c.setServer s f).server s = f := Function.update_self _ _ _
  rw [Cluster.act, Cluster.move, hself, LaptopFactory.testHeartbeat, if_pos ⟨hthread, hfree⟩,
    Option.map_some, Cluster.setServer, Cluster.setServer, Function.update_idem]
  rfl

/-- After at most two heartbeat tests `TimeoutThread` is in case `CANDIDATE`. -/
lemma path_branch (c : Cluster) (tr : List Event) (hs : s ∈ cfg.ids)
    (hthread : f.timeoutThread = .top)
    (hfree : f.metaLock = .free) (hstatus : f.metadata.status ≠ .leader) :
    ∃ heartbeat tr', (system cfg).Path Unbroken (c.setServer s f, tr)
      (c.setServer s
        { f with
          metadata := { f.metadata with status := .candidate, heartbeat := heartbeat }
          timeoutThread := .branch .candidate }, tr') := by
  -- a follower whose flag is not set stands
  have hunheard : ∀ (g : LaptopFactory) (tr : List Event), g.timeoutThread = .top →
      g.metaLock = .free → g.metadata.status = .follower → g.metadata.heartbeat = false →
      ∃ tr', (system cfg).Path Unbroken (c.setServer s g, tr)
        (c.setServer s
          { g with
            metadata := g.metadata.setStatus .candidate
            timeoutThread := .branch .candidate }, tr') := by
    intro g tr hthread hfree hstatus hflag
    have hread := path_readStatus (f := g) c tr hs hthread
    rw [hstatus] at hread
    have htest := path_testHeartbeat
      (f := { g with timeoutThread := .branch .follower }) c (tr ++ []) hs rfl hfree
    rw [if_neg (by simp [hflag])] at htest
    exact ⟨_, (hread.trans htest).trans (path_readStatus c _ hs rfl)⟩
  cases hcase : f.metadata.status with
  | leader => exact absurd hcase hstatus
  | candidate =>
      have hread := path_readStatus (f := f) c tr hs hthread
      rw [hcase] at hread
      have hsame : { f.metadata with status := .candidate, heartbeat := f.metadata.heartbeat } =
          f.metadata := by rw [← hcase]
      refine ⟨f.metadata.heartbeat, tr ++ [], ?_⟩
      rw [hsame]
      exact hread
  | follower =>
      by_cases hflag : f.metadata.heartbeat
      · have hread := path_readStatus (f := f) c tr hs hthread
        rw [hcase] at hread
        have htest := path_testHeartbeat
          (f := { f with timeoutThread := .branch .follower }) c (tr ++ []) hs rfl hfree
        rw [if_pos hflag] at htest
        obtain ⟨tr', hstand⟩ := hunheard
          { f with metadata := f.metadata.setHeartbeat false, timeoutThread := .top }
          (tr ++ [] ++ []) rfl hfree hcase rfl
        exact ⟨false, tr', (hread.trans htest).trans hstand⟩
      · obtain ⟨tr', hstand⟩ := hunheard f tr hthread hfree hcase (by simpa using hflag)
        exact ⟨f.metadata.heartbeat, tr', hstand⟩

/-- What a server's standing does not touch. -/
structure SameStanding (s : ℤ) (c c' : Cluster) : Prop where
  nodeSocket : (c'.server s).metadata.nodeSocket = (c.server s).metadata.nodeSocket
  neighbors : (c'.server s).metadata.neighbors = (c.server s).metadata.neighbors
  factoryId : (c'.server s).metadata.factoryId = (c.server s).metadata.factoryId
  logs : ∀ q, (c'.server q).metadata.smrLog = (c.server q).metadata.smrLog ∧
    (c'.server q).metadata.commitLength = (c.server q).metadata.commitLength
  link : c'.link = c.link
  locks : ∀ q, q ≠ s → (c'.server q).metaLock = (c.server q).metaLock
  followers : ∀ q, q ≠ s → (c.server q).metadata.status = .follower →
    (c'.server q).metadata.status = .follower
  updates : (c'.server s).erq = (c.server s).erq ∧
    (c'.server s).leaderThread = (c.server s).leaderThread

lemma SameStanding.trans {c'' : Cluster} (h : SameStanding s c c') (h' : SameStanding s c' c'') :
    SameStanding s c c'' :=
  ⟨h'.nodeSocket.trans h.nodeSocket, h'.neighbors.trans h.neighbors,
    h'.factoryId.trans h.factoryId, fun q => ⟨(h'.logs q).1.trans (h.logs q).1,
      (h'.logs q).2.trans (h.logs q).2⟩, h'.link.trans h.link,
    fun q hq => (h'.locks q hq).trans (h.locks q hq),
    fun q hq hfollower => h'.followers q hq (h.followers q hq hfollower),
    h'.updates.1.trans h.updates.1, h'.updates.2.trans h.updates.2⟩

lemma CallEnds.same (h : CallEnds s c c') : SameStanding s c c' := by
  refine ⟨?_, ?_, ?_, h.log, h.link, fun q hq => ?_, fun q hq hfollower => ?_, ?_⟩
  · rw [h.caller]
    cases c.election s <;> rfl
  · rw [h.caller]
    cases c.election s <;> rfl
  · rw [h.caller]
    cases c.election s <;> rfl
  · rcases h.others q hq with hsame | ⟨-, hasked⟩
    · rw [hsame]
    · rw [hasked]
  · rcases h.others q hq with hsame | ⟨-, hasked⟩
    · rw [hsame]
      exact hfollower
    · rw [hasked]
      exact asked_status hfollower
  · rw [h.caller]
    exact ⟨rfl, rfl⟩

/-- The arrays are those of `InitLeader`. -/
def FreshArrays (md : ServerMetadata) : Prop :=
  md.sentLength = some (List.replicate (md.getPeerSize + 1) md.logSize) ∧
    md.ackLength = some (List.replicate (md.getPeerSize + 1) 0)

lemma CallEnds.fresh (h : CallEnds s c c') (hcandidate : (c.server s).metadata.status ≠ .leader)
    (hleads : (c'.server s).metadata.status = .leader) : FreshArrays (c'.server s).metadata := by
  have hmetadata := congrArg LaptopFactory.metadata h.caller
  rw [hmetadata] at hleads ⊢
  cases hresult : c.election s with
  | won votes => exact ⟨rfl, rfl⟩
  | lost v =>
      rw [hresult] at hleads
      cases hleads
  | undecided votes =>
      rw [hresult] at hleads
      exact absurd hleads hcandidate

/-- A connected peer is of the higher of the two terms, at most. -/
lemma CallEnds.term_le (h : CallEnds s c c') {q : ℤ} (hq : q ≠ s) :
    (c'.server q).metadata.currentTerm ≤
      max (c.server q).metadata.currentTerm ((c.server s).metadata.currentTerm + 1) := by
  rcases h.others q hq with hsame | ⟨-, hasked⟩
  · rw [hsame]
    exact le_max_left _ _
  · rw [hasked, asked_currentTerm]
    exact le_rfl

lemma CanStand.of_same (h : CanStand cfg c tr s) {tr' : List Event}
    (hrun : (system cfg).Run TransitionSystem.anyStep c' tr') (hsame : SameStanding s c c')
    (hthread : (c'.server s).timeoutThread = .top) (hfree : (c'.server s).metaLock = .free)
    (hstatus : (c'.server s).metadata.status ≠ .leader) : CanStand cfg c' tr' s := by
  have hne : ∀ node ∈ (c.server s).metadata.nodeSocket, node.id ≠ s := fun node hnode =>
    ((cfg.mem_peers s h.mem node.id).1 (List.mem_map_of_mem
      ((wellFormed h.run h.mem).placed.nodeSocket node hnode))).2
  have hsize : ∀ q ∈ cfg.ids, (c'.server q).metadata.logSize = (c.server q).metadata.logSize := by
    intro q hq
    rw [(wellFormed hrun hq).sound.stored.logSize, (wellFormed h.run hq).sound.stored.logSize,
      (hsame.logs q).1]
  refine ⟨hrun, h.mem, hthread, hfree, hstatus, ?_, ?_, ?_, ?_, ?_⟩
  · rw [hsame.nodeSocket, hsame.link]
    exact h.link
  · rw [hsame.nodeSocket]
    intro node hnode
    rw [hsame.locks _ (hne node hnode)]
    exact h.answers node hnode
  · rw [hsame.nodeSocket]
    exact h.connected
  · rw [hsame.nodeSocket, getPeerSize, hsame.neighbors]
    exact h.enough
  · rw [hsame.nodeSocket]
    intro node hnode
    have hmem := ((cfg.mem_peers s h.mem node.id).1 (List.mem_map_of_mem
      ((wellFormed h.run h.mem).placed.nodeSocket node hnode))).1
    rw [(hsame.logs s).1, (hsame.logs node.id).1, hsize _ hmem]
    exact h.recent node hnode

/-- One attempt. -/
lemma CanStand.attempt (h : CanStand cfg c tr s) :
    ∃ c' tr', (system cfg).Path Unbroken (c, tr) (c', tr') ∧
      SameStanding s c c' ∧ (c'.server s).timeoutThread = .top ∧
      (c'.server s).metaLock = .free ∧
      (c.server s).metadata.currentTerm < (c'.server s).metadata.currentTerm ∧
      ((∀ node ∈ (c.server s).metadata.nodeSocket,
        (c.server node.id).metadata.currentTerm ≤ (c.server s).metadata.currentTerm) →
        (c'.server s).metadata.status = .leader) ∧
      ((c'.server s).metadata.status ≠ .leader →
        ∀ node ∈ (c.server s).metadata.nodeSocket, (c'.server node.id).metadata.currentTerm ≤
          max (c.server node.id).metadata.currentTerm (c'.server s).metadata.currentTerm) ∧
      ((c'.server s).metadata.status = .leader → FreshArrays (c'.server s).metadata) := by
  have hpeer : ∀ node ∈ (c.server s).metadata.nodeSocket, node.id ∈ cfg.ids ∧ node.id ≠ s :=
    fun node hnode => (cfg.mem_peers s h.mem node.id).1
      (List.mem_map_of_mem ((wellFormed h.run h.mem).placed.nodeSocket node hnode))
  obtain ⟨heartbeat, tr₁, hpath⟩ := path_branch c tr h.mem h.thread h.free h.status
  have hrefl : c.setServer s (c.server s) = c := by
    rw [Cluster.setServer, Function.update_eq_self]
  rw [hrefl] at hpath
  generalize hc₁ : c.setServer s _ = c₁ at hpath
  have hself : c₁.server s =
      { c.server s with
        metadata := { (c.server s).metadata with status := .candidate, heartbeat := heartbeat }
        timeoutThread := .branch .candidate } := by
    rw [← hc₁]
    exact Function.update_self _ _ _
  have hothers : ∀ q, q ≠ s → c₁.server q = c.server q := by
    intro q hq
    rw [← hc₁]
    exact Function.update_of_ne hq _ _
  have hsame : SameStanding s c c₁ := by
    refine ⟨by rw [hself], by rw [hself], by rw [hself], fun q => ?_, by rw [← hc₁]; rfl,
      fun q hq => by rw [hothers q hq], fun q hq hfollower => by rwa [hothers q hq],
      by rw [hself]; exact ⟨rfl, rfl⟩⟩
    by_cases hq : q = s
    · subst hq
      rw [hself]
      exact ⟨rfl, rfl⟩
    · rw [hothers q hq]
      exact ⟨rfl, rfl⟩
  have hstands : AboutToStand cfg c₁ tr₁ s := by
    refine ⟨hpath.run h.run, h.mem, by rw [hself], by rw [hself]; exact h.free, ?_, ?_⟩
    · rw [hsame.nodeSocket, hsame.link]
      exact h.link
    · rw [hsame.nodeSocket]
      intro node hnode
      rw [hothers _ (hpeer node hnode).2]
      exact h.answers node hnode
  have hterm : (c₁.server s).metadata.currentTerm = (c.server s).metadata.currentTerm := by
    rw [hself]
  have hcandidate : (c₁.server s).metadata.status = .candidate := by
    rw [hself]
  obtain ⟨c', hends, hleads, hwon, hlost, hopen⟩ := election_call hstands
  obtain ⟨c₂, es, hact, hcall⟩ := hends.call
  obtain ⟨tr', hpath'⟩ := path_of_voteCallTo h.mem hcall (tr₁ ++ es)
  -- whichever way the call ends, the term has moved on
  have hmoved : (c.server s).metadata.currentTerm + 1 ≤ (c'.server s).metadata.currentTerm := by
    by_cases hcarries : Carries c₁ s
    · rw [hwon hcarries, hterm]
    · by_cases houtranked : Outranked c₁ s
      · obtain ⟨-, node, -, hlt, heq⟩ := hlost hcarries houtranked
        rw [heq, ← hterm]
        exact hlt.le
      · rw [(hopen hcarries houtranked).2, hterm]
  refine ⟨c', tr', (hpath.trans (path_of_act h.mem rfl trivial hact)).trans hpath',
    hsame.trans hends.same, by rw [hends.caller], by rw [hends.caller], by omega, fun hle => ?_,
    fun _ node hnode => ?_, hends.fresh (by rw [hcandidate]; decide)⟩
  · refine hleads.2 (CarriedBy.of_grants ?_ (fun q hq => ?_) ?_)
    · rw [hsame.nodeSocket, Ne, List.map_eq_nil_iff]
      exact h.connected
    · rw [hsame.nodeSocket] at hq
      obtain ⟨node, hnode, rfl⟩ := List.mem_map.1 hq
      rw [Cluster.opinions, hothers _ (hpeer node hnode).2]
      refine opinion_eq_grants.2 ⟨?_, Or.inl ?_⟩
      · rw [ballotOf, (hsame.logs s).1]
        exact h.recent node hnode
      · change _ < (c₁.server s).metadata.currentTerm + 1
        rw [hterm]
        exact Int.lt_add_one_of_le (hle node hnode)
    · have henough := h.enough
      rw [getPeerSize, ← hsame.neighbors, ← hsame.nodeSocket] at henough
      refine henough.trans (Nat.mul_le_mul_right 2 (Finset.card_le_card ?_))
      rw [hsame.factoryId, (wellFormed h.run h.mem).placed.factoryId]
      intro q hq
      rw [Finset.mem_insert] at hq
      rcases hq with rfl | hq
      · exact Finset.mem_union_left _ (Finset.mem_insert_self _ _)
      · exact Finset.mem_union_right _ hq
  · have hbound := hends.term_le (hpeer node hnode).2
    rw [hothers _ (hpeer node hnode).2, hterm] at hbound
    exact hbound.trans (max_le_max_left _ hmoved)

/-- What a server has achieved by standing until it was elected. -/
structure Installed (s : ℤ) (c c' : Cluster) : Prop where
  same : SameStanding s c c'
  thread : (c'.server s).timeoutThread = .top
  free : (c'.server s).metaLock = .free
  status : (c'.server s).metadata.status = .leader
  term : (c.server s).metadata.currentTerm < (c'.server s).metadata.currentTerm
  arrays : FreshArrays (c'.server s).metadata

/-- The peers are not ahead without bound. -/
lemma exists_ahead (c : Cluster) (nodes : List ServerNode) (t : ℤ) :
    ∃ n : ℕ, ∀ node ∈ nodes, (c.server node.id).metadata.currentTerm ≤ t + n := by
  induction nodes with
  | nil => exact ⟨0, nofun⟩
  | cons x nodes ih =>
      obtain ⟨n, hn⟩ := ih
      refine ⟨n + ((c.server x.id).metadata.currentTerm - t).toNat,
        List.forall_mem_cons.2 ⟨by omega, ?_⟩⟩
      intro node hnode
      have := hn node hnode
      omega

lemma CanStand.elected (h : CanStand cfg c tr s) :
    ∃ c' tr', (system cfg).Path Unbroken (c, tr) (c', tr') ∧ Installed s c c' := by
  obtain ⟨n, hn⟩ := exists_ahead c (c.server s).metadata.nodeSocket
    (c.server s).metadata.currentTerm
  -- the induction is on how far the peers are ahead
  induction n generalizing c tr with
  | zero =>
      obtain ⟨c', tr', hpath, hsame, hthread, hfree, hlt, hleads, -, hfresh⟩ := h.attempt
      have hleader := hleads fun node hnode => by simpa using hn node hnode
      exact ⟨c', tr', hpath, hsame, hthread, hfree, hleader, hlt, hfresh hleader⟩
  | succ n ih =>
      obtain ⟨c', tr', hpath, hsame, hthread, hfree, hlt, -, hbehind, hfresh⟩ := h.attempt
      by_cases hleader : (c'.server s).metadata.status = .leader
      · exact ⟨c', tr', hpath, hsame, hthread, hfree, hleader, hlt, hfresh hleader⟩
      · have hnext : CanStand cfg c' tr' s :=
          h.of_same (hpath.run h.run) hsame hthread hfree hleader
        obtain ⟨c'', tr'', hpath', helected⟩ := ih hnext fun node hnode => by
          rw [hsame.nodeSocket] at hnode
          have hbound := hbehind hleader node hnode
          have hnode' := hn node hnode
          push_cast at hnode'
          omega
        exact ⟨c'', tr'', hpath.trans hpath', hsame.trans helected.same, helected.thread,
          helected.free, helected.status, hlt.trans helected.term, helected.arrays⟩

/-- **A server can be elected.**  Left to itself, with the peers it is connected to answering, a
server that does not lead becomes leader, in a new term and without changing any log. -/
theorem can_be_elected (h : CanStand cfg c tr s) :
    ∃ c' tr', (system cfg).Path TransitionSystem.anyStep (c, tr) (c', tr') ∧
      (c'.server s).metadata.status = .leader ∧
      (c.server s).metadata.currentTerm < (c'.server s).metadata.currentTerm ∧
      ∀ q, (c'.server q).metadata.smrLog = (c.server q).metadata.smrLog ∧
        (c'.server q).metadata.commitLength = (c.server q).metadata.commitLength := by
  obtain ⟨c', tr', hpath, helected⟩ := h.elected
  exact ⟨c', tr', hpath.any, helected.status, helected.term, helected.same.logs⟩

end Stand

/-- The first election: the vote of server 1 decides it. -/
theorem election_call_first : ∃ c tr, AboutToStand three c tr 0 ∧
    ∃ c', CallEnds 0 c c' ∧ (c'.server 0).metadata.status = .leader ∧
      (c'.server 0).metadata.currentTerm = (c.server 0).metadata.currentTerm + 1 := by
  obtain ⟨c, tr, hrun, hthread, hfree, hlink, hanswers, hpeers, hgrants, hwon⟩ := run_of_play three
    TransitionSystem.anyStep
    (P := fun c _ => (c.server 0).timeoutThread = .branch .candidate ∧
      (c.server 0).metaLock = .free ∧
      (∀ node ∈ (c.server 0).metadata.nodeSocket, c.link 0 node.id = true) ∧
      (∀ node ∈ (c.server 0).metadata.nodeSocket, (c.server node.id).metaLock = .free) ∧
      (c.server 0).metadata.nodeSocket.map ServerNode.id = [1, 2] ∧
      c.opinions (ballotOf (c.server 0).metadata) 1 = .grants ∧
      enoughVotes (c.server 0).metadata.getPeerSize
        (granted (c.opinions (ballotOf (c.server 0).metadata)) [1]
          (insert (c.server 0).metadata.factoryId (c.server 0).metadata.voteReceived)))
    (timeOut 0 ++ [.readStatus 0]) (by decide +kernel)
  have hcarries : Carries c 0 := ⟨[], 1, [2], hpeers, hgrants, nofun, hwon⟩
  have hstands : AboutToStand three c tr 0 := ⟨hrun, by decide, hthread, hfree, hlink, hanswers⟩
  obtain ⟨c', hends, hleads, hterm, -⟩ := election_call hstands
  exact ⟨c, tr, hstands, c', hends, hleads.2 hcarries, hterm hcarries⟩

/-- Server 1 stands twice, and nobody hears of it. -/
def standAlone : List Label :=
  timeOut 1 ++ [.readStatus 1, .requestVote 1, .voteLinkFails 1 ⟨0, 0, 0⟩,
    .voteLinkFails 1 ⟨0, 0, 0⟩, .endRequestVote 1, .readStatus 1, .requestVote 1,
    .voteLinkFails 1 ⟨0, 0, 0⟩, .voteLinkFails 1 ⟨0, 0, 0⟩, .endRequestVote 1]

/-- Server 0 has to stand twice to be ahead of server 1. -/
theorem can_be_elected_again : ∃ c tr, CanStand three c tr 0 ∧
    (c.server 0).metadata.currentTerm = 0 ∧ (c.server 1).metadata.currentTerm = 2 ∧
    ∃ c' tr', (system three).Path TransitionSystem.anyStep (c, tr) (c', tr') ∧
      (c'.server 0).metadata.status = .leader := by
  obtain ⟨c, tr, hrun, hthread, hfree, hstatus, hlink, hanswers, hconnected, henough, hrecent,
    hzero, hone⟩ := run_of_play three TransitionSystem.anyStep
    (P := fun c _ => (c.server 0).timeoutThread = .top ∧ (c.server 0).metaLock = .free ∧
      (c.server 0).metadata.status ≠ .leader ∧
      (∀ node ∈ (c.server 0).metadata.nodeSocket, c.link 0 node.id = true) ∧
      (∀ node ∈ (c.server 0).metadata.nodeSocket, (c.server node.id).metaLock = .free) ∧
      (c.server 0).metadata.nodeSocket ≠ [] ∧
      enoughVotes (c.server 0).metadata.getPeerSize
        (insert 0 ((c.server 0).metadata.nodeSocket.map ServerNode.id).toFinset) ∧
      (∀ node ∈ (c.server 0).metadata.nodeSocket,
        AsRecent (lastTerm (c.server 0).metadata.smrLog) (c.server 0).metadata.smrLog.length
          (lastTerm (c.server node.id).metadata.smrLog) (c.server node.id).metadata.logSize) ∧
      (c.server 0).metadata.currentTerm = 0 ∧ (c.server 1).metadata.currentTerm = 2)
    standAlone (by decide +kernel)
  have hstands : CanStand three c tr 0 :=
    ⟨hrun, by decide, hthread, hfree, hstatus, hlink, hanswers, hconnected, henough, hrecent⟩
  obtain ⟨c', tr', hpath, hleads, -⟩ := can_be_elected hstands
  exact ⟨c, tr, hstands, hzero, hone, c', tr', hpath, hleads⟩

end LaptopRaft
