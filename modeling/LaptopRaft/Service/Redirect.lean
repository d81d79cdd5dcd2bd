import LaptopRaft.Election.Roles
import LaptopRaft.Framework.Reader
import LaptopRaft.Model.Customer

/-!
# The redirect

A `CustomerHandler` that finds another server to be the leader asks `GetLeaderIp` and
`GetLeaderPort` for its address.  Both call `GetLeader`, which looks for `leader_id` among the
neighbors and returns `nullptr` if it is not there, and both dereference what they get.  The
handler does not hold `meta_lock`, so it is a reader of the cluster, and `GetLeader` reads
`leader_id` anew for each neighbor.

Whoever is followed is a neighbor (`leaderId_cases`).  Still the loop misses the leader when another
one is followed meanwhile that it has passed (`leader_missed`), and when the server itself is
elected, for the server is not among its neighbors (`redirect_without_leader`).  `leader_found` says
that nothing else goes wrong.
-/

namespace LaptopRaft

open ServerMetadata

/-! ## A handler and the cluster -/

/-- The steps of a `CustomerHandler`. -/
inductive HandlerLabel
  | deliver (m : CustomerMessage)
  | identifySender
  | sendIsLeader
  | testLeader
  | getLeaderIp
  | getLeaderPort
  | sendLeaderInfo (ips : Fin 4 → ℤ)
  | receiveRequest
  | serve (engineerId adminId : ℤ)
  | hangUp
  | fail (n : ℕ)

/-- The handler reads the metadata of its server. -/
def Connection.read (conn : Connection) (c : Cluster) : HandlerLabel → Option Connection
  | .deliver m => some (conn.deliver m)
  | .identifySender => conn.identifySender
  | .sendIsLeader => conn.sendIsLeader (c.server conn.server).metadata
  | .testLeader => conn.testLeader (c.server conn.server).metadata
  | .getLeaderIp => conn.getLeaderIp (c.server conn.server).metadata
  | .getLeaderPort => conn.getLeaderPort (c.server conn.server).metadata
  | .sendLeaderInfo ips => conn.sendLeaderInfo ips
  | .receiveRequest => conn.receiveRequest
  | .serve engineerId adminId =>
      conn.serve (c.server conn.server).metadata engineerId adminId
  | .hangUp => conn.hangUp
  | .fail n => some (conn.fail n)

/-- **The cluster, with a connection to one of its members.** -/
def connected (cfg : Config) (s : ℤ) :
    TransitionSystem (Cluster × Connection) (Label ⊕ HandlerLabel) Event :=
  (system cfg).withReader Connection.read fun conn =>
    conn = { server := s, pc := .identifySender }

/-- The neighbors that `GetLeader` has still to compare. -/
def HandlerPc.left : HandlerPc → Option (List ServerNode)
  | .getLeaderIp nodes | .getLeaderPort _ nodes => some nodes
  | _ => none

/-- `GetLeader` has not run past the last neighbor, where it returns `nullptr`. -/
def LeaderFound (p : Cluster × Connection) : Prop := p.2.pc.left ≠ some []

instance (p : Cluster × Connection) : Decidable (LeaderFound p) :=
  inferInstanceAs (Decidable (_ ≠ _))

/-- While the handler is in `GetLeaderIp` or `GetLeaderPort`, its server does not set `leader_id`
but to a neighbor that `GetLeader` has still to compare. -/
def LeaderAhead (p : Cluster × Connection) : Label ⊕ HandlerLabel → Prop
  | .inl l => ∀ nodes ∈ p.2.pc.left, ∀ q ∈ p.1.act l,
      (q.1.server p.2.server).metadata.leaderId = (p.1.server p.2.server).metadata.leaderId ∨
        (q.1.server p.2.server).metadata.leaderId ∈ nodes.map ServerNode.id
  | .inr _ => True

instance (p : Cluster × Connection) (l : Label ⊕ HandlerLabel) : Decidable (LeaderAhead p l) := by
  unfold LeaderAhead
  split <;> infer_instance

/-! ## What the handler relies on -/

namespace Connection

variable {conn conn' : Connection} {c : Cluster} {l : HandlerLabel}

lemma send_frame (conn : Connection) (m : ServerMessage) :
    (conn.send m).server = conn.server ∧ (conn.send m).pc = conn.pc := by
  unfold send
  split <;> exact ⟨rfl, rfl⟩

lemma deliver_frame (conn : Connection) (m : CustomerMessage) :
    (conn.deliver m).server = conn.server ∧ (conn.deliver m).pc = conn.pc := by
  unfold deliver
  split <;> exact ⟨rfl, rfl⟩

/-- How a handler comes to look for the leader among `nodes`. -/
inductive Looking (conn : Connection) (md : ServerMetadata) (nodes : List ServerNode) : Prop
  | before (h : conn.pc.left = some nodes)
  | test (hother : md.isLeader = 0) (h : nodes = md.neighbors)
  | next {node : ServerNode} (h : conn.pc.left = some (node :: nodes))
      (hother : node.id ≠ md.leaderId)
  | again {before : List ServerNode} (h : conn.pc.left = some before) (hall : nodes = md.neighbors)

/-- One round of `GetLeader`. -/
lemma getLeader_cases {md : ServerMetadata} {nodes : List ServerNode}
    {found : ServerNode ⊕ List ServerNode} (h : md.getLeader nodes = some found) :
    (∃ leader, found = .inl leader) ∨
      ∃ node left, found = .inr left ∧ nodes = node :: left ∧ node.id ≠ md.leaderId := by
  cases nodes with
  | nil => cases h
  | cons node left =>
      obtain rfl := Option.some.inj h
      by_cases hid : node.id = md.leaderId
      · exact Or.inl ⟨node, if_pos hid⟩
      · exact Or.inr ⟨node, left, if_neg hid, rfl, hid⟩

/-- A step of the handler. -/
lemma read_cases (h : conn.read c l = some conn') :
    conn'.server = conn.server ∧ ∀ nodes ∈ conn'.pc.left,
      conn.Looking (c.server conn.server).metadata nodes := by
  cases l with
  | deliver m =>
      obtain rfl := Option.some.inj h
      obtain ⟨hserver, hpc⟩ := deliver_frame conn m
      exact ⟨hserver, fun nodes hleft => .before (hpc ▸ hleft)⟩
  | fail n =>
      obtain rfl := Option.some.inj h
      exact ⟨rfl, fun nodes hleft => .before hleft⟩
  | identifySender =>
      simp only [read, identifySender] at h
      split at h
      · obtain rfl := Option.some.inj h
        refine ⟨rfl, fun nodes hleft => ?_⟩
        dsimp only at hleft
        split at hleft <;> cases hleft
      · cases h
  | sendIsLeader =>
      simp only [read, sendIsLeader] at h
      split at h
      · obtain rfl := Option.some.inj h
        exact ⟨(send_frame conn _).1, fun nodes hleft => by cases hleft⟩
      · cases h
  | testLeader =>
      simp only [read, testLeader] at h
      split at h
      · obtain rfl := Option.some.inj h
        refine ⟨rfl, fun nodes hleft => ?_⟩
        dsimp only at hleft
        split at hleft
        · rename_i hother
          exact .test hother (Option.some.inj hleft).symm
        · cases hleft
      · cases h
  | getLeaderIp =>
      simp only [read, getLeaderIp] at h
      split at h
      · rename_i nodes hpc
        obtain ⟨found, hround, rfl⟩ := Option.map_eq_some_iff.1 h
        have hbefore : conn.pc.left = some nodes := by
          rw [hpc]
          rfl
        rcases getLeader_cases hround with ⟨leader, rfl⟩ | ⟨node, left, rfl, rfl, hother⟩
        · exact ⟨rfl, fun nodes hleft => .again hbefore (Option.some.inj hleft).symm⟩
        · refine ⟨rfl, fun nodes hleft => ?_⟩
          obtain rfl := Option.some.inj hleft
          exact .next hbefore hother
      · cases h
  | getLeaderPort =>
      simp only [read, getLeaderPort] at h
      split at h
      · rename_i ip nodes hpc
        obtain ⟨found, hround, rfl⟩ := Option.map_eq_some_iff.1 h
        have hbefore : conn.pc.left = some nodes := by
          rw [hpc]
          rfl
        rcases getLeader_cases hround with ⟨leader, rfl⟩ | ⟨node, left, rfl, rfl, hother⟩
        · exact ⟨rfl, fun nodes hleft => by cases hleft⟩
        · refine ⟨rfl, fun nodes hleft => ?_⟩
          obtain rfl := Option.some.inj hleft
          exact .next hbefore hother
      · cases h
  | sendLeaderInfo ips =>
      simp only [read, sendLeaderInfo] at h
      split at h
      · obtain ⟨info, -, rfl⟩ := Option.map_eq_some_iff.1 h
        exact ⟨(send_frame conn _).1, fun nodes hleft => by cases hleft⟩
      · cases h
  | receiveRequest =>
      simp only [read, receiveRequest] at h
      split at h
      · obtain rfl := Option.some.inj h
        refine ⟨rfl, fun nodes hleft => ?_⟩
        dsimp only at hleft
        split at hleft
        · cases hleft
        · split at hleft <;> cases hleft
      · cases h
  | serve engineerId adminId =>
      simp only [read, serve] at h
      split at h
      · obtain rfl := Option.some.inj h
        exact ⟨(send_frame conn _).1, fun nodes hleft => by cases hleft⟩
      · cases h
  | hangUp =>
      simp only [read, hangUp] at h
      split at h
      · obtain rfl := Option.some.inj h
        exact ⟨rfl, fun nodes hleft => by cases hleft⟩
      · cases h

end Connection

lemma ThreadStep.leaderId_cases {cfg : Config} {s : ℤ} {c : Cluster} {f' : LaptopFactory}
    {l : Label} {es : List Event} (hwf : WellFormed cfg s (c.server s))
    (hstep : ThreadStep s (c.server s) l f' es) :
    f'.metadata.leaderId = (c.server s).metadata.leaderId ∨
      (BecomesLeader c s l ∧ f'.metadata.leaderId = s) := by
  cases hstep with
  | elected hlock harrives hterm hvoted hwon =>
      refine Or.inr ⟨becomesLeader_of_arrives harrives ⟨hterm, hvoted, hwon⟩, ?_⟩
      exact hwf.placed.factoryId
  | fail hlock hlabel hfail =>
      obtain ⟨ack, sent, -, -, -, -, rfl⟩ := failNode_cases hfail
      exact Or.inl rfl
  | entryAnswered hlock hwire hsent hreact =>
      obtain ⟨-, sent, ack, k, rfl, -, -⟩ := hreact.frame hwf hlock hwire hsent
      exact Or.inl rfl
  | deposed =>
      refine Or.inl ?_
      rw [LaptopFactory.returnTo_metadata]
      rfl
  | «return» => exact Or.inl (by rw [LaptopFactory.returnTo_metadata])
  | _ => exact Or.inl rfl

lemma Served.leaderId_cases {cfg : Config} {f : LaptopFactory} {p : ℤ} {rpc : Rpc}
    {md : ServerMetadata} {reply : Reply} (hstored : Stored f.metadata)
    (hrpc : FromPeer cfg p rpc) (hserved : Served f rpc md reply) :
    md.leaderId = f.metadata.leaderId ∨ (md.leaderId ∈ cfg.ids ∧ md.leaderId ≠ p) := by
  cases hserved with
  | vote hfree hanswer =>
      rw [hanswer.frame]
      exact Or.inl rfl
  | @log req _ res hfree hvalid hanswer =>
      rw [(getLogResponse_cases hstored hanswer).frame]
      rcases adoptLeader_cases f.metadata req with ⟨-, heq⟩ | ⟨-, -, heq⟩
      · rw [heq]
        exact Or.inr hrpc
      · rw [heq]
        exact Or.inl rfl

/-- **Who is followed**: a step that changes `leader_id` is the server's own election, or follows
another member. -/
theorem leaderId_cases {cfg : Config} {ok : Cluster → Label → Prop} {c c' : Cluster}
    {tr es : List Event} {l : Label} (hrun : (system cfg).Run ok c tr)
    (hst : (system cfg).step c l = some (c', es)) (q : ℤ) :
    (c'.server q).metadata.leaderId = (c.server q).metadata.leaderId ∨
      (BecomesLeader c q l ∧ (c'.server q).metadata.leaderId = q) ∨
      ((c'.server q).metadata.leaderId ∈ cfg.ids ∧ (c'.server q).metadata.leaderId ≠ q) := by
  rcases step_server hrun hst q with heq | ⟨hq, hstep⟩ | ⟨rpc, reply, hdelivered, hrpc, hserved⟩
  · rw [heq]
    exact Or.inl rfl
  · exact (hstep.leaderId_cases (wellFormed hrun hq)).imp_right Or.inl
  · have hpeer := fromPeer_of_delivered hrun (mem_of_step hst) hdelivered
    have hstored := (wellFormed hrun hrpc.mem).sound.stored
    exact (hserved.leaderId_cases hstored hpeer).imp_right Or.inr

/-! ## Runs -/

/-- What is known of the leader, by the server and by a handler that looks for it. -/
structure LeaderKnown (cfg : Config) (s : ℤ) (c : Cluster) (conn : Connection) : Prop where
  server : conn.server = s
  known : (c.server s).metadata.leaderId = -1 ∨ (c.server s).metadata.leaderId ∈ cfg.ids
  ahead : ∀ nodes ∈ conn.pc.left, nodes ⊆ cfg.peers s ∧
    (c.server s).metadata.leaderId ∈ nodes.map ServerNode.id

section Runs

variable {cfg : Config} {s : ℤ} {p : Cluster × Connection} {tr : List Event}

lemma isLeader_eq_zero {md : ServerMetadata} :
    md.isLeader = 0 ↔ md.leaderId ≠ -1 ∧ md.leaderId ≠ md.factoryId := by
  unfold isLeader
  split
  · rename_i hknown
    split
    · rename_i hown
      simp [hown]
    · rename_i hother
      simp [hother, hknown]
  · rename_i hunknown
    simp [hunknown]

theorem leaderKnown_of_run (hrun : (connected cfg s).Run LeaderAhead p tr) (hs : s ∈ cfg.ids) :
    LeaderKnown cfg s p.1 p.2 := by
  refine TransitionSystem.Run.withReader_invariant ?_ ?_ ?_ hrun
  · rintro _ _ ⟨connects, rfl⟩ rfl
    obtain ⟨index, heq, -⟩ := bootMetadata_eq cfg connects s
    have hmetadata : ((boot cfg connects).server s).metadata = _ := heq
    exact ⟨rfl, Or.inl (by rw [hmetadata]), fun nodes hleft => by cases hleft⟩
  · rintro c conn tr l c' es hrun' hok hst ⟨rfl, hknown, hahead⟩
    refine ⟨rfl, ?_, fun nodes hleft => ?_⟩
    · rcases leaderId_cases hrun' hst conn.server with hsame | ⟨-, hown⟩ | hpeer
      · exact hsame ▸ hknown
      · exact Or.inr (by rw [hown]; exact hs)
      · exact Or.inr hpeer.1
    · obtain ⟨hpeers, hleader⟩ := hahead nodes hleft
      refine ⟨hpeers, ?_⟩
      rcases hok nodes hleft _ (act_of_step hst) with hsame | hset
      · rw [hsame]
        exact hleader
      · exact hset
  · rintro c conn tr k conn' hrun' - hread ⟨rfl, hknown, hahead⟩
    have hplaced := (wellFormed hrun' hs).placed
    obtain ⟨hserver, hlooking⟩ := Connection.read_cases hread
    refine ⟨hserver, hknown, fun nodes hleft => ?_⟩
    cases hlooking nodes hleft with
    | before hbefore => exact hahead nodes hbefore
    | test hother hall =>
        -- the leader is known and is not this server, so it is a neighbor
        rw [isLeader_eq_zero, hplaced.factoryId] at hother
        rw [hall, hplaced.neighbors]
        exact ⟨List.Subset.refl _,
          (cfg.mem_peers _ hs _).2 ⟨hknown.resolve_left hother.1, hother.2⟩⟩
    | next hbefore hother =>
        obtain ⟨hpeers, hleader⟩ := hahead _ hbefore
        rw [List.map_cons, List.mem_cons] at hleader
        exact ⟨fun x hx => hpeers (List.mem_cons_of_mem _ hx),
          hleader.resolve_left fun heq => hother heq.symm⟩
    | again hbefore hall =>
        obtain ⟨hpeers, hleader⟩ := hahead _ hbefore
        rw [hall, hplaced.neighbors]
        exact ⟨List.Subset.refl _, List.map_subset _ hpeers hleader⟩

/-- **A redirect finds the leader**, after every run in which `leader_id` is not set, while a
handler looks for the leader, but to a neighbor that the handler has still to compare. -/
theorem leader_found (hrun : (connected cfg s).Run LeaderAhead p tr) (hs : s ∈ cfg.ids) :
    LeaderFound p := by
  intro hnone
  obtain ⟨-, hleader⟩ := (leaderKnown_of_run hrun hs).ahead [] hnone
  cases hleader

end Runs

/-! ## Scripts -/

/-- A customer connects to server 0. -/
def redirectBoot : Cluster × Connection :=
  (boot three fun _ _ => true, { server := 0, pc := .identifySender })

/-- A customer connects, and the handler tests whether its server is the leader. -/
def askForLeader : List (Label ⊕ HandlerLabel) :=
  [.inr (.deliver (.identifier customerIdentifier)), .inr .identifySender, .inr .sendIsLeader,
    .inr .testLeader]

/-- Server 1 is elected and followed by all; the handler of server 0 finds that another server is
the leader. -/
def redirect : List (Label ⊕ HandlerLabel) :=
  (stand 1 ++ callVote 1 ++ heartbeat 1 ++ callLog 1 ++ callLog 1 ++
    [Label.endRound 1]).map .inl ++ askForLeader

theorem leader_found_redirect : ∃ p tr, (connected three 0).Run LeaderAhead p tr ∧
    p.2.pc = .getLeaderPort "" [⟨1, 1, "", 0⟩, ⟨2, 2, "", 0⟩] ∧
    (p.1.server 0).metadata.leaderId = 1 ∧ LeaderFound p := by
  obtain ⟨p, tr, hrun, hpc, hleader⟩ := TransitionSystem.run_of_exec (connected three 0)
    LeaderAhead redirectBoot ⟨⟨_, rfl⟩, rfl⟩ (redirect ++ [.inr .getLeaderIp])
    (P := fun p _ => p.2.pc = .getLeaderPort "" [⟨1, 1, "", 0⟩, ⟨2, 2, "", 0⟩] ∧
      (p.1.server 0).metadata.leaderId = 1)
    (by decide +kernel)
  exact ⟨p, tr, hrun, hpc, hleader, leader_found hrun (by decide)⟩

/-- Before the handler asks for the leader's address, its own server is elected. -/
theorem redirect_without_leader : ∃ p tr,
    (connected three 0).Run TransitionSystem.anyStep p tr ∧ p.2.pc = .getLeaderIp [] ∧
    (p.1.server 0).metadata.leaderId = 0 ∧ ¬ LeaderFound p := by
  obtain ⟨p, tr, hrun, hpc, hleader⟩ := TransitionSystem.run_of_exec (connected three 0)
    TransitionSystem.anyStep redirectBoot ⟨⟨_, rfl⟩, rfl⟩
    (redirect ++ (timeOut 0 ++ stand 0 ++ callVote 0).map .inl ++
      [.inr .getLeaderIp, .inr .getLeaderIp])
    (P := fun p _ => p.2.pc = .getLeaderIp [] ∧ (p.1.server 0).metadata.leaderId = 0)
    (by decide +kernel)
  exact ⟨p, tr, hrun, hpc, hleader, fun hfound => hfound (by rw [hpc]; rfl)⟩

/-- Server 0 follows server 2 while its handler compares server 1, and server 1 while the handler
compares server 2.  Server 0 itself is never elected. -/
theorem leader_missed : ∃ p tr,
    (connected three 0).Run TransitionSystem.anyStep p tr ∧ p.2.pc = .getLeaderIp [] ∧
    (p.1.server 0).metadata.leaderId = 1 ∧ (p.1.server 0).metadata.ackLength = none ∧
    ¬ LeaderFound p := by
  obtain ⟨p, tr, hrun, hpc, hleader, hnever⟩ := TransitionSystem.run_of_exec (connected three 0)
    TransitionSystem.anyStep redirectBoot ⟨⟨_, rfl⟩, rfl⟩
    ((stand 2 ++ callVote 2 ++ heartbeat 2 ++ callLog 2 ++ callLog 2 ++
      [Label.endRound 2]).map .inl ++ askForLeader ++ [.inr .getLeaderIp] ++
      (timeOut 1 ++ stand 1 ++ callVote 1 ++ heartbeat 1 ++ callLog 1).map .inl ++
      [.inr .getLeaderIp])
    (P := fun p _ => p.2.pc = .getLeaderIp [] ∧ (p.1.server 0).metadata.leaderId = 1 ∧
      (p.1.server 0).metadata.ackLength = none)
    (by decide +kernel)
  exact ⟨p, tr, hrun, hpc, hleader, hnever, fun hfound => hfound (by rw [hpc]; rfl)⟩

end LaptopRaft
