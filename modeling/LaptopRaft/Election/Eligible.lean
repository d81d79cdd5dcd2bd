import LaptopRaft.Election.Ballot
import LaptopRaft.Election.Counted
import LaptopRaft.Properties.Reach
import LaptopRaft.Replication.Leadership

/-!
# Who can lead

`RequestVote` asks the peers in `node_socket`, and `WonElection` compares the votes with the number
of all peers.  As a server never gets a connection to a peer that did not accept it at start-up
(`Properties/Reach`), start-up decides which servers can ever be elected: those that reached at
least one peer and are, with the peers they reached, enough votes (`can_lead_iff`).  The failure of
a connection can make a leader of another server, by a vote that nobody gave; `NoGarbageVoter` is
the condition that excludes this.

In a cluster whose servers are started one after the other the first one never leads.
-/

namespace LaptopRaft

open ServerMetadata TransitionSystem

lemma Unbroken.noGarbageVoter {c : Cluster} {l : Label} (h : Unbroken c l) :
    NoGarbageVoter c l := by
  cases l with
  | voteLinkFails => exact h.elim
  | _ => trivial

/-! ## Votes come from peers that were reached -/

/-- The votes a server has are its own and those of `R`; if it leads, they were enough. -/
structure Polled (peers : ℕ) (R : Finset ℤ) (s : ℤ) (f : LaptopFactory) : Prop where
  votes : f.metadata.voteReceived ⊆ insert s R
  answered : ∀ res, f.wire = .response (.vote res) → res.id ∈ insert s R
  leads : f.metadata.status = .leader → R.Nonempty ∧ enoughVotes peers (insert s R)

section Polled

variable {cfg : Config} {peers : ℕ} {R : Finset ℤ} {s : ℤ} {f f' : LaptopFactory} {l : Label}
  {es : List Event} {c : Cluster} {res : RequestVoteResponse}

lemma Polled.frame (h : Polled peers R s f)
    (hvotes : f'.metadata.voteReceived ⊆ f.metadata.voteReceived)
    (hstatus : f'.metadata.status = .leader → f.metadata.status = .leader)
    (hwire : ∀ res, f'.wire = .response (.vote res) → f.wire = .response (.vote res)) :
    Polled peers R s f' :=
  ⟨hvotes.trans h.votes, fun res hres => h.answered res (hwire res hres),
    fun hleader => h.leads (hstatus hleader)⟩

/-- Nobody else is counted. -/
lemma Polled.count (h : Polled peers R s (c.server s)) (hok : NoGarbageVoter c l)
    (harrives : VoteArrives s (c.server s) l res)
    (hterm : (c.server s).metadata.currentTerm = res.currentTerm) (hvoted : res.voted ≠ 0) :
    ((c.server s).metadata.counted res.id).voteReceived ⊆ insert s R := by
  refine Finset.insert_subset ?_ h.votes
  rcases harrives with ⟨-, hwire⟩ | rfl
  · exact h.answered res hwire
  · exact h.votes (hok hterm hvoted)

lemma enoughVotes.mono {votes votes' : Finset ℤ} (h : enoughVotes peers votes)
    (hsub : votes ⊆ votes') : enoughVotes peers votes' :=
  h.trans (Nat.mul_le_mul_right 2 (Finset.card_le_card hsub))

lemma ThreadStep.polled (hok : NoGarbageVoter c l) (hwf : WellFormed cfg s (c.server s))
    (hcontacts : ∀ x ∈ (c.server s).contacts, x.id ∈ R)
    (hstep : ThreadStep s (c.server s) l f' es)
    (h : Polled (cfg.peers s).length R s (c.server s)) : Polled (cfg.peers s).length R s f' := by
  have hsub : (c.server s).metadata.voteReceived ⊆ (c.server s).metadata.voteReceived :=
    subset_rfl
  have hpeers : (c.server s).metadata.getPeerSize = (cfg.peers s).length := by
    rw [getPeerSize, hwf.placed.neighbors]
  cases hstep with
  | readStatus | rest | endVote | queue | maintain | replicate | nextRound =>
      exact h.frame hsub id fun _ => id
  | timeOut => exact h.frame hsub (by simp [setStatus]) fun _ => id
  | askVote | sendLog | ignoreVote | heartbeatAnswered => exact h.frame hsub id (by simp)
  | stand =>
      have hself : (c.server s).metadata.factoryId ∈ insert s R := by
        rw [hwf.placed.factoryId]
        exact Finset.mem_insert_self s R
      exact ⟨Finset.insert_subset hself h.votes, h.answered, h.leads⟩
  | countVote hlock harrives hterm hvoted =>
      exact ⟨h.count hok harrives hterm hvoted, by simp, h.leads⟩
  | @elected node rest res _ hlock harrives hterm hvoted hwon =>
      have hcount := h.count hok harrives hterm hvoted
      have hnode : node ∈ (c.server s).contacts := by
        apply mem_contacts_of_lock
        rw [hlock]
        exact List.mem_cons_self
      have henough : enoughVotes (cfg.peers s).length
          ((c.server s).metadata.counted res.id).voteReceived := by
        rw [← hpeers]
        exact of_decide_eq_true hwon
      exact ⟨hcount, by simp, fun _ => ⟨⟨node.id, hcontacts node hnode⟩, henough.mono hcount⟩⟩
  | outvoted => exact h.frame (Finset.empty_subset _) (by simp [demoted]) (by simp)
  | fail hlock hlabel hfail =>
      obtain ⟨ack, sent, -, -, -, -, rfl⟩ := failNode_cases hfail
      exact h.frame hsub id (by simp)
  | entryAnswered hlock hwire hsent hreact =>
      obtain ⟨-, sent, ack, k, rfl, -, -⟩ := hreact.frame hwf hlock hwire hsent
      exact h.frame hsub id (by simp)
  | @deposed caller node rest new change res hlock hwire hsent hlt =>
      apply h.frame
      · rw [LaptopFactory.returnTo_metadata]
        exact Finset.empty_subset _
      · simp [demoted]
      · simp
  | «return» =>
      apply h.frame
      · rw [LaptopFactory.returnTo_metadata]
      · rw [LaptopFactory.returnTo_metadata]
        exact id
      · simp

/-- A handler can only take votes and leadership away. -/
lemma Polled.served {rpc : Rpc} {md : ServerMetadata} {reply : Reply} (h : Polled peers R s f)
    (hserved : Served f rpc md reply) (hstored : Stored f.metadata) :
    Polled peers R s { f with metadata := md } := by
  refine h.frame ?_ (fun hleader => ?_) fun _ hres => hres
  · rcases hserved.keepsTerm hstored with hempty | ⟨hkept, -⟩
    · exact hempty.trans_subset (Finset.empty_subset _)
    · exact hkept.subset
  · rcases hserved.status_cases hstored with hfollower | ⟨hsame, -⟩
    · have hleader' : md.status = .leader := hleader
      rw [hfollower] at hleader'
      cases hleader'
    · exact hsame ▸ hleader

/-- The answer to a vote request is that of the peer that was asked. -/
lemma Polled.answer {g : LaptopFactory} {node : ServerNode} {rpc : Rpc} {md : ServerMetadata}
    {reply : Reply} (h : Polled peers R s f) (hnode : node.id ∈ R)
    (hplaced : Placed cfg node.id g) (hserved : Served g rpc md reply) :
    Polled peers R s { f with wire := .response reply } := by
  refine ⟨h.votes, fun res hres => ?_, h.leads⟩
  obtain rfl : reply = .vote res := Wire.response.inj hres
  cases hserved with
  | vote hfree hanswer =>
      rw [hanswer.id, hplaced.factoryId]
      exact Finset.mem_insert_of_mem hnode

end Polled

section Runs

variable {cfg : Config} {connects : ℤ → ServerNode → Bool} {c c' : Cluster} {tr es : List Event}
  {l : Label} {s : ℤ}

/-- Every member has votes of peers only that it reached at start-up. -/
def AllPolled (cfg : Config) (connects : ℤ → ServerNode → Bool) (c : Cluster) : Prop :=
  ∀ s ∈ cfg.ids, Polled (cfg.peers s).length (cfg.reached connects s) s (c.server s)

lemma allPolled_boot (cfg : Config) (connects : ℤ → ServerNode → Bool) :
    AllPolled cfg connects (boot cfg connects) := by
  intro s hs
  obtain ⟨index, heq, -⟩ := bootMetadata_eq cfg connects s
  have hmetadata : ((boot cfg connects).server s).metadata = _ := heq
  refine ⟨?_, by simp [boot], ?_⟩
  · rw [hmetadata]
    exact Finset.empty_subset _
  · rw [hmetadata]
    simp

lemma allPolled_step (hrun : (system cfg).Run anyStep c tr) (hok : NoGarbageVoter c l)
    (hconfined : Confined cfg (cfg.Reaches connects) c)
    (hst : (system cfg).step c l = some (c', es)) (h : AllPolled cfg connects c) :
    AllPolled cfg connects c' := by
  intro q hq
  have hwith : ∀ {p rpc md reply}, Served (c.server p) rpc md reply →
      Polled (cfg.peers q).length (cfg.reached connects q) q (c.withMetadata p md q) := by
    intro p rpc md reply hserved
    unfold Cluster.withMetadata
    by_cases hqp : q = p
    · subst hqp
      rw [Function.update_self]
      exact (h q hq).served hserved (wellFormed hrun hq).sound.stored
    · rw [Function.update_of_ne hqp]
      exact h q hq
  cases effect_of_step hst with
  | @thread s f _ hs hstep hserver =>
      rw [hserver]
      by_cases hqs : q = s
      · subst hqs
        rw [Function.update_self]
        exact hstep.polled hok (wellFormed hrun hq)
          (fun x hx => (hconfined.contacts q hq x hx).2) (h q hq)
      · rw [Function.update_of_ne hqs]
        exact h q hq
  | @answer s node rpc md reply hs hwire hserved hserver =>
      rw [hserver]
      by_cases hqs : q = s
      · subst hqs
        have hne : q ≠ node.id := ne_of_served hrun hwire hserved
        have hsame : c.withMetadata node.id md q = c.server q := Function.update_of_ne hne _ _
        rw [Function.update_self, hsame]
        exact (h q hq).answer (hconfined.callee hrun hq hwire).2
          (wellFormed hrun (soundRpc_of_wire hrun hq hwire).mem).placed hserved
      · rw [Function.update_of_ne hqs]
        exact hwith hserved
  | discard hfrom hserved hserver =>
      rw [hserver]
      exact hwith hserved

lemma allPolled (hpath : (system cfg).Path NoGarbageVoter (boot cfg connects, []) (c, tr)) :
    AllPolled cfg connects c := by
  have hstart : (system cfg).Run anyStep (boot cfg connects) [] := .init ⟨connects, rfl⟩
  have hboth : Confined cfg (cfg.Reaches connects) c ∧ AllPolled cfg connects c := by
    refine Path.invariant
      (I := fun c => Confined cfg (cfg.Reaches connects) c ∧ AllPolled cfg connects c) ?_ hpath
      hstart ⟨confined_boot cfg connects, allPolled_boot cfg connects⟩
    rintro c tr l c' es hrun hok hst ⟨hconfined, h⟩
    exact ⟨hconfined.step hrun hst, allPolled_step hrun hok hconfined hst h⟩
  exact hboth.2

/-! ## A server that nobody stops -/

/-- At start-up, a server can stand if the peers it reached are enough. -/
lemma canStand_boot (hs : s ∈ cfg.ids) (hsome : (cfg.reached connects s).Nonempty)
    (henough : enoughVotes (cfg.peers s).length (insert s (cfg.reached connects s))) :
    CanStand cfg (boot cfg connects) [] s := by
  have hmetadata : ∀ q, ∃ index, ((boot cfg connects).server q).metadata =
      { factoryId := q
        serverIndexMap := index
        neighbors := cfg.peers q
        nodeSocket := ((cfg.peers q).filter (connects q)).foldl insertSocket [] } := by
    intro q
    obtain ⟨index, heq, -⟩ := bootMetadata_eq cfg connects q
    exact ⟨index, heq⟩
  obtain ⟨index, heq⟩ := hmetadata s
  have hsocket : ∀ x, x ∈ ((boot cfg connects).server s).metadata.nodeSocket ↔
      x ∈ cfg.peers s ∧ connects s x = true := by
    intro x
    rw [heq, mem_foldl_insertSocket, List.mem_filter]
    simp
  refine ⟨.init ⟨connects, rfl⟩, hs, rfl, rfl, ?_, fun node hnode => ?_, fun _ _ => rfl, ?_, ?_, ?_⟩
  · rw [heq]
    simp
  · exact List.any_eq_true.2 ⟨node, hnode, by simp⟩
  · obtain ⟨p, hp⟩ := hsome
    obtain ⟨node, hpeer, hconnects, -⟩ := Config.mem_reached.1 hp
    exact List.ne_nil_of_mem ((hsocket node).2 ⟨hpeer, hconnects⟩)
  · have hids : (((boot cfg connects).server s).metadata.nodeSocket.map ServerNode.id).toFinset =
        cfg.reached connects s := by
      ext p
      rw [List.mem_toFinset, List.mem_map, Config.mem_reached]
      simp only [hsocket, and_assoc]
    rw [hids, heq]
    exact henough
  · intro node _
    obtain ⟨index', heq'⟩ := hmetadata node.id
    rw [heq, heq']
    exact Or.inr ⟨rfl, le_rfl⟩

end Runs

end LaptopRaft
