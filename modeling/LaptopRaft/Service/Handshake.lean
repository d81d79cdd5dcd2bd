import LaptopRaft.Framework.Simulation
import LaptopRaft.Model.Customer
import LaptopRaft.Properties.WellFormed

/-!
# What a customer takes the bytes for

Client and server decide on their own how many messages follow the leader flag.  The handler calls
`IsLeader` twice, once for the flag and once to decide whether to send a `LeaderInfo`; the client
reads a `LeaderInfo` if the flag says so, and on the redirected connection in no case.

`LeaderInfoFits` is the condition that a `LeaderInfo` is sent only where the client reads it, or
reads nothing any more.  The invariant is `Coherent`: once the client has received what is on its
way to it (`Follows`), client and handler are at corresponding points (`InStep`).  By
`InFlight.recv` the client then decodes each message as what it is (`handshake_agreement`).
`leader_info_taken_for_laptop` is a client that is redirected to a server that has just been
deposed.

The servers of a client thread are in any state and change it in any way.  `attended_simulation`
says that this covers the clients of a cluster.
-/

namespace LaptopRaft

/-! ## The property -/

/-- The block was sent as a message of the type as which it is decoded. -/
def Decoded.Agrees (d : Decoded) : Prop :=
  ∃ m : ServerMessage, m.type = d.type ∧ d.block = octets ServerMessage.marshal m

lemma ServerMessage.marshal_length (m : ServerMessage) : m.marshal.length = m.type.size := by
  cases m <;> rfl

lemma MessageType.size_pos (t : MessageType) : 0 < t.size := by
  cases t <;> decide

/-- A byte of a message of another type. -/
lemma Decoded.not_agrees {d : Decoded} {o : Octet ServerMessage} (ho : o ∈ d.block)
    (htype : o.message.type ≠ d.type) : ¬ d.Agrees := by
  rintro ⟨m, hm, hblock⟩
  rw [hblock] at ho
  rw [message_of_mem_octets _ ho] at htype
  exact htype hm

/-- The handler is on its way to a `LeaderInfo`. -/
def HandlerPc.Announces : HandlerPc → Prop
  | .getLeaderIp _ | .getLeaderPort _ _ | .sendLeaderInfo _ _ => True
  | _ => False

namespace Connection

variable (conn : Connection) (m : ServerMessage)

lemma send_failed : (conn.send m).failed = conn.failed := by
  unfold send
  split <;> rfl

lemma send_inbox : (conn.send m).inbox = conn.inbox := by
  unfold send
  split <;> rfl

lemma send_flag : (conn.send m).flag = conn.flag := by
  unfold send
  split <;> rfl

/-- The handler goes on looking for the leader. -/
def Looks (conn' : Connection) : Prop :=
  conn.pc.Announces ∧ ∃ pc' : HandlerPc, pc'.Announces ∧ conn' = { conn with pc := pc' }

variable {conn} {conn' : Connection} {md : ServerMetadata}

lemma getLeaderIp_looks (h : conn.getLeaderIp md = some conn') : conn.Looks conn' := by
  unfold getLeaderIp at h
  split at h
  · rename_i nodes hpc
    obtain ⟨leader | nodes', -, rfl⟩ := Option.map_eq_some_iff.1 h
    · exact ⟨by rw [hpc]; trivial, .getLeaderPort leader.ip md.neighbors, trivial, rfl⟩
    · exact ⟨by rw [hpc]; trivial, .getLeaderIp nodes', trivial, rfl⟩
  · cases h

lemma getLeaderPort_looks (h : conn.getLeaderPort md = some conn') : conn.Looks conn' := by
  unfold getLeaderPort at h
  split at h
  · rename_i ip nodes hpc
    obtain ⟨leader | nodes', -, rfl⟩ := Option.map_eq_some_iff.1 h
    · exact ⟨by rw [hpc]; trivial, .sendLeaderInfo ip leader.port, trivial, rfl⟩
    · exact ⟨by rw [hpc]; trivial, .getLeaderPort ip nodes', trivial, rfl⟩
  · cases h

end Connection

namespace ThreadArgs

variable (a : ThreadArgs)

/-- The thread sends a request in iteration `i`. -/
def Requests (i isLeader : ℤ) : Prop :=
  i < a.numRequests ∧ ¬ (a.requestType = updateRequest ∧ isLeader = 0) ∧
    (a.requestOf i isLeader).isSome

instance (i isLeader : ℤ) : Decidable (a.Requests i isLeader) := by
  unfold Requests
  infer_instance

/-- A handler that finds itself a follower at the second call of `IsLeader`, and so is going to
send a `LeaderInfo`, has sent the flag `1` on a first connection, or another one after which the
client sends no request; or else the client is gone. -/
def LeaderInfoFits (w : Handshake) : HandshakeLabel → Prop
  | .testLeader leg =>
      w.thread.leg = leg → w.thread.isOpen = true → (w.connection leg).failed = false →
      (w.metadataAt leg).isLeader = 0 → ∀ flag ∈ (w.connection leg).flag,
        (leg = .first ∧ flag = followerFlag) ∨ ¬ a.Requests 0 flag
  | _ => True

instance (w : Handshake) (l : HandshakeLabel) : Decidable (a.LeaderInfoFits w l) := by
  induction l using HandshakeLabel.casesOn <;> dsimp only [LeaderInfoFits] <;> infer_instance

/-! ## Client and handler at corresponding points -/

/-- The thread receives nothing more on the connection it has. -/
def Quiet : ThreadPc → Prop
  | .init _ _ _ | .returned => True
  | .loop i isLeader => ¬ a.Requests i isLeader
  | _ => False

/-- The thread waits for the reply to a request. -/
inductive Awaits : ThreadPc → CustomerRequest → Prop
  | order {i isLeader : ℤ} {request : CustomerRequest}
      (htype : request.requestType = updateRequest) : Awaits (.order i isLeader) request
  | readRecord {i isLeader : ℤ} {request : CustomerRequest}
      (htype : request.requestType = readRequest) : Awaits (.readRecord i isLeader) request

/-- A handler that has sent what it sends before the first reply, or will see to it that it has. -/
inductive Listens (leg : Leg) : HandlerPc → Option ℤ → Prop
  | receiving {flag : Option ℤ} : Listens leg .receiveRequest flag
  | testing {flag : ℤ} (hflag : ¬ (leg = .first ∧ flag = followerFlag))
      (hrequests : a.Requests 0 flag) : Listens leg .testLeader (some flag)

/-- Client and handler at corresponding points, with nothing on its way to the client. -/
inductive InStep (leg : Leg) :
    ThreadPc → HandlerPc → List CustomerMessage → Option ℤ → Prop
  | connected {flag : Option ℤ} : InStep leg .sendIdentifier .identifySender [] flag
  | identifying {flag : Option ℤ} :
      InStep leg .recvIsLeader .identifySender [.identifier customerIdentifier] flag
  | identified {flag : Option ℤ} : InStep leg .recvIsLeader .sendIsLeader [] flag
  | flagged (hleg : leg = .first) :
      InStep leg .recvLeaderInfo .testLeader [] (some followerFlag)
  | announcing {flag : Option ℤ} {h : HandlerPc} (hannounces : h.Announces) :
      InStep leg .recvLeaderInfo h [] flag
  | unannounced {flag : Option ℤ} : InStep leg .recvLeaderInfo .receiveRequest [] flag
  | ready {flag : Option ℤ} {h : HandlerPc} {i isLeader : ℤ} (hlistens : a.Listens leg h flag) :
      InStep leg (.loop i isLeader) h [] flag
  | requested {flag : Option ℤ} {h : HandlerPc} {pc : ThreadPc} {request : CustomerRequest}
      (hlistens : a.Listens leg h flag) (hawaits : Awaits pc request) :
      InStep leg pc h [.request request] flag
  | serving {flag : Option ℤ} {pc : ThreadPc} {request : CustomerRequest}
      (hawaits : Awaits pc request) : InStep leg pc (.serve request) [] flag
  | refused {flag : Option ℤ} {pc : ThreadPc} {request : CustomerRequest}
      (hawaits : Awaits pc request) : InStep leg pc .returned [] flag

/-- The thread can receive `ms` one after the other, each as what it is, and is then at a point
where `B` holds; or it stops receiving before. -/
def Follows (leg : Leg) (B : ThreadPc → Prop) : ThreadPc → List ServerMessage → Prop
  | pc, [] => a.Quiet pc ∨ B pc
  | pc, m :: ms => a.Quiet pc ∨ (pc.expects = some m.type ∧
      Follows leg B (a.afterRecv leg pc (some m.marshal)) ms)

variable {a} {leg : Leg} {B B' : ThreadPc → Prop} {pc : ThreadPc} {m : ServerMessage}
  {ms : List ServerMessage}

lemma Follows.of_quiet (h : a.Quiet pc) : a.Follows leg B pc ms := by
  cases ms <;> exact Or.inl h

lemma Follows.mono (hB : ∀ pc, B pc → B' pc) (h : a.Follows leg B pc ms) :
    a.Follows leg B' pc ms := by
  induction ms generalizing pc with
  | nil => exact h.imp_right (hB pc)
  | cons m ms ih => exact h.imp_right fun hreads => ⟨hreads.1, ih hreads.2⟩

/-- Another message is sent. -/
lemma Follows.concat
    (hB : ∀ pc, B pc → pc.expects = some m.type ∧
      (a.Quiet (a.afterRecv leg pc (some m.marshal)) ∨ B' (a.afterRecv leg pc (some m.marshal))))
    (h : a.Follows leg B pc ms) : a.Follows leg B' pc (ms ++ [m]) := by
  induction ms generalizing pc with
  | nil => exact h.imp_right (hB pc)
  | cons m ms ih => exact h.imp_right fun hreads => ⟨hreads.1, ih hreads.2⟩

/-- A thread that is about to send has received everything. -/
lemma Follows.eq_nil (h : a.Follows leg B pc ms) (hquiet : ¬ a.Quiet pc)
    (hexpects : pc.expects = none) : ms = [] ∧ B pc := by
  cases ms with
  | nil => exact ⟨rfl, h.resolve_left hquiet⟩
  | cons m ms =>
      have htype := (h.resolve_left hquiet).1
      rw [hexpects] at htype
      cases htype

/-- At the head of the loop the thread either stops receiving, or the handler listens. -/
lemma quiet_or_inStep {h : HandlerPc} {flag : Option ℤ} {i isLeader : ℤ}
    (hlistens : a.Requests i isLeader → a.Listens leg h flag) :
    a.Quiet (.loop i isLeader) ∨ a.InStep leg (.loop i isLeader) h [] flag := by
  by_cases hrequests : a.Requests i isLeader
  · exact Or.inr (.ready (hlistens hrequests))
  · exact Or.inl hrequests

/-! ## What the handler sends -/

lemma afterRecv_isLeader {flag : ℤ} (h : IsInt flag) :
    a.afterRecv leg .recvIsLeader (some (ServerMessage.isLeader flag).marshal) =
      if leg = .first ∧ flag = followerFlag then .recvLeaderInfo else .loop 0 flag := by
  have hdecoded : ofNetwork (toNetwork flag) = flag := by
    simpa using ofNetwork_toNetwork h []
  simp only [afterRecv, ServerMessage.marshal, Option.map_some, Option.getD_some, hdecoded]

lemma isInt_flag (md : ServerMetadata) : IsInt (md.isLeader + 1) := by
  unfold ServerMetadata.isLeader IsInt
  split
  · split <;> decide
  · decide

lemma InStep.identifySender {n : ℤ} {inbox : List CustomerMessage} {flag : Option ℤ}
    (h : a.InStep leg pc .identifySender (.identifier n :: inbox) flag) :
    a.InStep leg pc (if n = customerIdentifier then .sendIsLeader else .returned) inbox flag := by
  cases h with
  | identifying => exact .identified

/-- The flag. -/
lemma InStep.sendIsLeader {inbox : List CustomerMessage} {flag : Option ℤ} (md : ServerMetadata)
    (h : a.InStep leg pc .sendIsLeader inbox flag) :
    pc.expects = some .isLeader ∧
      (a.Quiet (a.afterRecv leg pc (some (ServerMessage.isLeader (md.isLeader + 1)).marshal)) ∨
        a.InStep leg
          (a.afterRecv leg pc (some (ServerMessage.isLeader (md.isLeader + 1)).marshal))
          .testLeader inbox (some (md.isLeader + 1))) := by
  cases h with
  | identified =>
      refine ⟨rfl, ?_⟩
      rw [afterRecv_isLeader (isInt_flag md)]
      split
      · rename_i hfollower
        rw [hfollower.2]
        exact Or.inr (.flagged hfollower.1)
      · rename_i hother
        exact quiet_or_inStep fun hrequests => .testing hother hrequests
  | announcing hannounces => exact hannounces.elim
  | ready hlistens | requested hlistens => cases hlistens

/-- The decision on the `LeaderInfo`. -/
lemma InStep.testLeader {inbox : List CustomerMessage} {flag : Option ℤ} {md : ServerMetadata}
    (hfits : md.isLeader = 0 → ∀ f ∈ flag,
      (leg = .first ∧ f = followerFlag) ∨ ¬ a.Requests 0 f)
    (h : a.InStep leg pc .testLeader inbox flag) :
    a.InStep leg pc (if md.isLeader = 0 then .getLeaderIp md.neighbors else .receiveRequest)
      inbox flag := by
  -- a handler that the client expects to listen does not go on to a `LeaderInfo`
  have hlistens : ∀ {flag}, (md.isLeader = 0 → ∀ f ∈ flag,
      (leg = .first ∧ f = followerFlag) ∨ ¬ a.Requests 0 f) →
      a.Listens leg .testLeader flag → md.isLeader ≠ 0 := by
    rintro _ hfits (_ | ⟨hflag, hrequests⟩) hzero
    exact (hfits hzero _ rfl).elim hflag fun hnot => hnot hrequests
  cases h with
  | flagged =>
      split
      · exact .announcing trivial
      · exact .unannounced
  | announcing hannounces => exact hannounces.elim
  | ready hlistens' =>
      rw [if_neg (hlistens hfits hlistens')]
      exact .ready .receiving
  | requested hlistens' hawaits =>
      rw [if_neg (hlistens hfits hlistens')]
      exact .requested .receiving hawaits

/-- The handler goes on looking for the leader. -/
lemma InStep.announces {h h' : HandlerPc} {inbox : List CustomerMessage} {flag : Option ℤ}
    (hannounces : h.Announces) (hannounces' : h'.Announces) (hin : a.InStep leg pc h inbox flag) :
    a.InStep leg pc h' inbox flag := by
  cases hin with
  | announcing => exact .announcing hannounces'
  | ready hlistens | requested hlistens => cases hlistens <;> exact hannounces.elim
  | _ => exact hannounces.elim

/-- The `LeaderInfo`. -/
lemma InStep.sendLeaderInfo {inbox : List CustomerMessage} {flag : Option ℤ} {ip : String}
    {port : ℤ} (info : LeaderInfo) (h : a.InStep leg pc (.sendLeaderInfo ip port) inbox flag) :
    pc.expects = some .leaderInfo ∧
      (a.Quiet (a.afterRecv leg pc (some (ServerMessage.leaderInfo info).marshal)) ∨
        a.InStep leg (a.afterRecv leg pc (some (ServerMessage.leaderInfo info).marshal))
          .receiveRequest inbox flag) := by
  cases h with
  | announcing =>
      refine ⟨rfl, ?_⟩
      simp only [afterRecv]
      split
      · exact Or.inl trivial
      · exact quiet_or_inStep fun _ => .receiving
  | ready hlistens | requested hlistens => cases hlistens

/-- The reply. -/
lemma InStep.reply {inbox : List CustomerMessage} {flag : Option ℤ} {request : CustomerRequest}
    (md : ServerMetadata) (engineerId adminId : ℤ)
    (h : a.InStep leg pc (.serve request) inbox flag) :
    pc.expects = some (Connection.replyTo md request engineerId adminId).type ∧
      (a.Quiet
        (a.afterRecv leg pc (some (Connection.replyTo md request engineerId adminId).marshal)) ∨
        a.InStep leg
          (a.afterRecv leg pc (some (Connection.replyTo md request engineerId adminId).marshal))
          .receiveRequest inbox flag) := by
  cases h with
  | serving hawaits =>
      cases hawaits with
      | order htype =>
          refine ⟨by rw [Connection.replyTo, if_pos htype]; rfl, ?_⟩
          simp only [afterRecv]
          split
          · exact Or.inl trivial
          · exact quiet_or_inStep fun _ => .receiving
      | readRecord htype =>
          have hupdate : request.requestType ≠ updateRequest := by
            rw [htype]
            decide
          refine ⟨by rw [Connection.replyTo, if_neg hupdate]; rfl, ?_⟩
          simp only [afterRecv]
          split
          · exact Or.inl trivial
          · exact quiet_or_inStep fun _ => .receiving
  | announcing hannounces => exact hannounces.elim
  | ready hlistens | requested hlistens => cases hlistens

/-- A request arrives. -/
lemma InStep.receiveRequest {request : CustomerRequest} {inbox : List CustomerMessage}
    {flag : Option ℤ} (h : a.InStep leg pc .receiveRequest (.request request :: inbox) flag) :
    a.InStep leg pc
      (if request.customerId = -1 then .returned
        else if request.requestType = updateRequest ∨ request.requestType = readRequest then
          .serve request
        else .receiveRequest) inbox flag := by
  cases h with
  | requested hlistens hawaits =>
      split
      · exact .refused hawaits
      · have htype : request.requestType = updateRequest ∨ request.requestType = readRequest := by
          cases hawaits with
          | order htype => exact Or.inl htype
          | readRecord htype => exact Or.inr htype
        rw [if_pos htype]
        exact .serving hawaits

/-- The thread, on an open connection, and the handler at the other end. -/
def Coherent (a : ThreadArgs) (leg : Leg) (pc : ThreadPc) (conn : Connection) : Prop :=
  ∃ ms, InFlight ServerMessage.marshal conn.stream conn.failed ms ∧
    a.Follows leg (fun pc => conn.failed = true ∨ a.InStep leg pc conn.pc conn.inbox conn.flag)
      pc ms

variable {conn conn' : Connection}

/-- Over a failed connection nothing more is sent. -/
lemma Coherent.of_failed (h : a.Coherent leg pc conn) (hstream : conn'.stream = conn.stream)
    (hfailed : conn.failed = true) (hfailed' : conn'.failed = true) :
    a.Coherent leg pc conn' := by
  obtain ⟨ms, hflight, hfollows⟩ := h
  rw [hfailed, ← hstream, ← hfailed'] at hflight
  exact ⟨ms, hflight, hfollows.mono fun _ _ => Or.inl hfailed'⟩

lemma Coherent.fail (h : a.Coherent leg pc conn) (n : ℕ) :
    a.Coherent leg pc (conn.fail n) := by
  obtain ⟨ms, hflight, hfollows⟩ := h
  exact ⟨ms, hflight.cutOff n, hfollows.mono fun _ _ => Or.inl rfl⟩

/-- The handler moves without sending. -/
lemma Coherent.of_silent (h : a.Coherent leg pc conn) (hstream : conn'.stream = conn.stream)
    (hfailed : conn'.failed = conn.failed)
    (hstep : ∀ pc, a.InStep leg pc conn.pc conn.inbox conn.flag →
      a.InStep leg pc conn'.pc conn'.inbox conn'.flag) : a.Coherent leg pc conn' := by
  obtain ⟨ms, hflight, hfollows⟩ := h
  rw [← hstream, ← hfailed] at hflight
  exact ⟨ms, hflight, hfollows.mono fun pc hB => hB.imp (hfailed.trans ·) (hstep pc)⟩

/-- The handler sends a message. -/
lemma Coherent.of_send (h : a.Coherent leg pc conn) (hstream : conn'.stream = (conn.send m).stream)
    (hfailed : conn'.failed = conn.failed)
    (hstep : ∀ pc, a.InStep leg pc conn.pc conn.inbox conn.flag → pc.expects = some m.type ∧
      (a.Quiet (a.afterRecv leg pc (some m.marshal)) ∨
        a.InStep leg (a.afterRecv leg pc (some m.marshal)) conn'.pc conn'.inbox conn'.flag)) :
    a.Coherent leg pc conn' := by
  cases hcut : conn.failed with
  | true =>
      have hsame : (conn.send m).stream = conn.stream := by
        rw [Connection.send, if_pos hcut]
      exact h.of_failed (hstream.trans hsame) hcut (hfailed.trans hcut)
  | false =>
      obtain ⟨ms, hflight, hfollows⟩ := h
      have hsent : (conn.send m).stream = conn.stream ++ octets ServerMessage.marshal m := by
        rw [Connection.send, if_neg (by simp [hcut])]
      refine ⟨ms ++ [m], ?_, hfollows.concat fun pc hB => ?_⟩
      · rw [hstream, hsent, hfailed, hcut]
        rw [hcut] at hflight
        exact hflight.send m
      · have hinStep := hB.resolve_left (by simp [hcut])
        exact ⟨(hstep pc hinStep).1, (hstep pc hinStep).2.imp_right Or.inr⟩

/-- The thread sends a message. -/
lemma Coherent.deliver (h : a.Coherent leg pc conn) {message : CustomerMessage} {pc' : ThreadPc}
    (hquiet : ¬ a.Quiet pc) (hexpects : pc.expects = none)
    (hstep : ∀ h inbox flag, a.InStep leg pc h inbox flag →
      a.InStep leg pc' h (inbox ++ [message]) flag) :
    a.Coherent leg pc' (conn.deliver message) := by
  obtain ⟨ms, hflight, hfollows⟩ := h
  obtain ⟨rfl, hB⟩ := hfollows.eq_nil hquiet hexpects
  unfold Connection.deliver
  split
  · rename_i hcut
    exact ⟨[], hflight, Or.inr (Or.inl hcut)⟩
  · exact ⟨[], hflight, Or.inr (hB.imp_right (hstep _ _ _))⟩

/-- **The thread receives.** -/
lemma Coherent.recv (h : a.Coherent leg pc conn) {t : MessageType} (hexpects : pc.expects = some t)
    (hlen : t.size ≤ conn.stream.length) :
    Decoded.Agrees ⟨t, conn.stream.take t.size⟩ ∧
      a.Coherent leg
        (a.afterRecv leg pc
          (some ((conn.stream.take t.size).map (Octet.value ServerMessage.marshal))))
        { conn with stream := conn.stream.drop t.size } := by
  obtain ⟨ms, hflight, hfollows⟩ := h
  have hquiet : ¬ a.Quiet pc := by
    cases pc <;> simp_all [ThreadPc.expects, Quiet]
  obtain ⟨m, rest, rfl, hframe⟩ := hflight.recv t.size_pos hlen
  obtain ⟨htype, hfollows⟩ := hfollows.resolve_left hquiet
  obtain rfl : t = m.type := Option.some.inj (hexpects.symm.trans htype)
  obtain ⟨htake, hflight⟩ := hframe m.marshal_length
  rw [htake, octets_value]
  exact ⟨⟨m, rfl, rfl⟩, rest, hflight, hfollows⟩

/-! ## The steps of the handler -/

lemma Coherent.identifySender (h : a.Coherent leg pc conn)
    (hst : conn.identifySender = some conn') : a.Coherent leg pc conn' := by
  unfold Connection.identifySender at hst
  split at hst
  · rename_i n inbox hpc hinbox
    obtain rfl := Option.some.inj hst
    refine h.of_silent rfl rfl fun pc hinStep => ?_
    rw [hpc, hinbox] at hinStep
    exact hinStep.identifySender
  · cases hst

lemma Coherent.sendIsLeader (h : a.Coherent leg pc conn) {md : ServerMetadata}
    (hst : conn.sendIsLeader md = some conn') : a.Coherent leg pc conn' := by
  unfold Connection.sendIsLeader at hst
  split at hst
  · rename_i hpc
    obtain rfl := Option.some.inj hst
    refine h.of_send rfl (Connection.send_failed _ _) fun pc hinStep => ?_
    rw [hpc] at hinStep
    rw [Connection.send_inbox]
    exact hinStep.sendIsLeader md
  · cases hst

/-- The step the condition is about. -/
lemma Coherent.testLeader (h : a.Coherent leg pc conn) {md : ServerMetadata}
    (hfits : conn.failed = false → md.isLeader = 0 → ∀ f ∈ conn.flag,
      (leg = .first ∧ f = followerFlag) ∨ ¬ a.Requests 0 f)
    (hst : conn.testLeader md = some conn') : a.Coherent leg pc conn' := by
  unfold Connection.testLeader at hst
  split at hst
  · rename_i hpc
    obtain rfl := Option.some.inj hst
    by_cases hfailed : conn.failed = true
    · exact h.of_failed rfl hfailed hfailed
    · refine h.of_silent rfl rfl fun pc hinStep => ?_
      rw [hpc] at hinStep
      exact hinStep.testLeader (hfits (Bool.eq_false_iff.2 hfailed))
  · cases hst

/-- A round of `GetLeader`. -/
lemma Coherent.looks (h : a.Coherent leg pc conn) (hlooks : conn.Looks conn') :
    a.Coherent leg pc conn' := by
  obtain ⟨hannounces, pc', hannounces', rfl⟩ := hlooks
  exact h.of_silent rfl rfl fun pc hinStep => hinStep.announces hannounces hannounces'

lemma Coherent.sendLeaderInfo (h : a.Coherent leg pc conn) {ips : Fin 4 → ℤ}
    (hst : conn.sendLeaderInfo ips = some conn') : a.Coherent leg pc conn' := by
  unfold Connection.sendLeaderInfo at hst
  split at hst
  · rename_i ip port hpc
    obtain ⟨info, -, rfl⟩ := Option.map_eq_some_iff.1 hst
    refine h.of_send rfl (Connection.send_failed _ _) fun pc hinStep => ?_
    rw [hpc] at hinStep
    rw [Connection.send_inbox, Connection.send_flag]
    exact hinStep.sendLeaderInfo info
  · cases hst

lemma Coherent.receiveRequest (h : a.Coherent leg pc conn)
    (hst : conn.receiveRequest = some conn') : a.Coherent leg pc conn' := by
  unfold Connection.receiveRequest at hst
  split at hst
  · rename_i request inbox hpc hinbox
    obtain rfl := Option.some.inj hst
    refine h.of_silent rfl rfl fun pc hinStep => ?_
    rw [hpc, hinbox] at hinStep
    exact hinStep.receiveRequest
  · cases hst

lemma Coherent.serve (h : a.Coherent leg pc conn) {md : ServerMetadata} {engineerId adminId : ℤ}
    (hst : conn.serve md engineerId adminId = some conn') : a.Coherent leg pc conn' := by
  unfold Connection.serve at hst
  split at hst
  · rename_i request hpc
    obtain rfl := Option.some.inj hst
    refine h.of_send rfl (Connection.send_failed _ _) fun pc hinStep => ?_
    rw [hpc] at hinStep
    rw [Connection.send_inbox, Connection.send_flag]
    exact hinStep.reply md engineerId adminId
  · cases hst

lemma Coherent.hangUp (h : a.Coherent leg pc conn) (hfailed : conn.failed = true)
    (hst : conn.hangUp = some conn') : a.Coherent leg pc conn' := by
  unfold Connection.hangUp at hst
  split at hst
  · obtain rfl := Option.some.inj hst
    exact h.of_failed rfl hfailed hfailed
  · cases hst

end ThreadArgs

/-! ## One step -/

namespace Handshake

variable {net : Network} {a : ThreadArgs} {w w' : Handshake} {l : HandshakeLabel}
  {es : List Decoded}

/-- The invariant. -/
def Coherent (a : ThreadArgs) (w : Handshake) : Prop :=
  w.thread.isOpen = true → a.Coherent w.thread.leg w.thread.pc w.current

lemma Coherent.of_closed (h : w.thread.isOpen = false) : w.Coherent a := by
  intro hopen
  rw [h] at hopen
  cases hopen

/-- The thread goes on to a point after which it receives nothing. -/
lemma Coherent.goOn (h : w.Coherent a) {pc : ThreadPc} (hquiet : a.Quiet pc) :
    (w.goOn pc).Coherent a := by
  intro hopen
  obtain ⟨ms, hflight, -⟩ := h hopen
  exact ⟨ms, hflight, .of_quiet hquiet⟩

/-- A handler moves. -/
lemma Coherent.move (h : w.Coherent a) {leg : Leg} {conn : Option Connection}
    (hst : w.move leg conn = some (w', es))
    (hstep : ∀ conn', conn = some conn' → w.thread.leg = leg → w.thread.isOpen = true →
      a.Coherent leg w.thread.pc (w.connection leg) → a.Coherent leg w.thread.pc conn') :
    w'.Coherent a ∧ ∀ d ∈ es, d.Agrees := by
  obtain ⟨conn', hconn, rfl, rfl⟩ := TransitionSystem.exists_of_map_eq_some hst
  refine ⟨fun hopen => ?_, by simp⟩
  have hcoherent := h hopen
  by_cases hleg : w.thread.leg = leg
  · subst hleg
    have hcurrent : (w.setConnection w.thread.leg conn').current = conn' :=
      Function.update_self _ _ _
    rw [hcurrent]
    exact hstep conn' hconn rfl hopen hcoherent
  · have hcurrent : (w.setConnection leg conn').current = w.current :=
      Function.update_of_ne hleg _ _
    rw [hcurrent]
    exact hcoherent

lemma Coherent.init {connects : Bool} (hst : w.init net connects = some w') :
    w'.Coherent a := by
  unfold Handshake.init at hst
  split at hst
  · rename_i leg ip port hpc
    split at hst
    · obtain ⟨s, -, rfl⟩ := Option.map_eq_some_iff.1 hst
      have hcurrent : Handshake.current
          { w.setConnection leg { server := s, pc := .identifySender } with
            thread := ⟨.sendIdentifier, leg, true⟩ } = { server := s, pc := .identifySender } :=
        Function.update_self _ _ _
      intro _
      rw [hcurrent]
      exact ⟨[], .nil _, Or.inr (Or.inr .connected)⟩
    · obtain rfl := Option.some.inj hst
      exact .of_closed rfl
  · cases hst

lemma Coherent.threadSend (h : w.Coherent a) {message : CustomerMessage} {succeeds : Bool}
    {sent failed : ThreadPc} (hst : w.threadSend message succeeds sent failed = some w')
    (hquiet : ¬ a.Quiet w.thread.pc) (hexpects : w.thread.pc.expects = none)
    (hstep : ∀ h inbox flag, a.InStep w.thread.leg w.thread.pc h inbox flag →
      a.InStep w.thread.leg sent h (inbox ++ [message]) flag) : w'.Coherent a := by
  unfold Handshake.threadSend at hst
  split at hst
  · split at hst
    · rename_i hopen
      obtain rfl := Option.some.inj hst
      intro _
      have hcurrent : ((w.setConnection w.thread.leg (w.current.deliver message)).goOn
          sent).current = w.current.deliver message := Function.update_self _ _ _
      rw [hcurrent]
      exact (h hopen).deliver hquiet hexpects hstep
    · cases hst
  · split at hst
    · obtain rfl := Option.some.inj hst
      exact .of_closed rfl
    · cases hst

lemma Coherent.threadRecv (h : w.Coherent a) {t : MessageType} {succeeds : Bool}
    (hst : w.threadRecv a t succeeds = some (w', es)) (hexpects : w.thread.pc.expects = some t) :
    w'.Coherent a ∧ ∀ d ∈ es, d.Agrees := by
  unfold Handshake.threadRecv at hst
  split at hst
  · split at hst
    · rename_i hready
      simp only [Option.some.injEq, Prod.mk.injEq] at hst
      obtain ⟨rfl, rfl⟩ := hst
      obtain ⟨hagrees, hcoherent⟩ := (h hready.1).recv hexpects hready.2
      refine ⟨fun _ => ?_, by simpa using hagrees⟩
      have hcurrent : ∀ conn pc, ((w.setConnection w.thread.leg conn).goOn pc).current = conn :=
        fun _ _ => Function.update_self _ _ _
      rw [hcurrent]
      exact hcoherent
    · cases hst
  · split at hst
    · simp only [Option.some.injEq, Prod.mk.injEq] at hst
      obtain ⟨rfl, rfl⟩ := hst
      exact ⟨.of_closed rfl, by simp⟩
    · cases hst

/-- The request of an iteration, and the place where the thread waits for the reply. -/
lemma awaits_of_requestOf {i isLeader : ℤ} {request : CustomerRequest} {pc : ThreadPc}
    (h : a.requestOf i isLeader = some (request, pc)) : ThreadArgs.Awaits pc request := by
  unfold ThreadArgs.requestOf at h
  split at h
  · simp only [Option.some.injEq, Prod.mk.injEq] at h
    obtain ⟨rfl, rfl⟩ := h
    exact .order rfl
  · split at h
    · simp only [Option.some.injEq, Prod.mk.injEq] at h
      obtain ⟨rfl, rfl⟩ := h
      exact .readRecord rfl
    · cases h

/-- Whether there is a request does not depend on the iteration. -/
lemma requestOf_eq_none {i isLeader : ℤ} (h : a.requestOf i isLeader = none) (i' : ℤ) :
    a.requestOf i' isLeader = none := by
  unfold ThreadArgs.requestOf at h ⊢
  split_ifs at h ⊢
  rfl

lemma Coherent.threadBody (h : w.Coherent a) {succeeds : Bool}
    (hst : w.threadBody a succeeds = some (w', es)) : w'.Coherent a ∧ ∀ d ∈ es, d.Agrees := by
  unfold Handshake.threadBody at hst
  split at hst
  · rename_i hpc
    obtain ⟨w₁, hsend, rfl, rfl⟩ := TransitionSystem.exists_of_map_eq_some hst
    refine ⟨h.threadSend hsend (by rw [hpc]; exact id) (by rw [hpc]; rfl) ?_, by simp⟩
    intro handler inbox flag hinStep
    rw [hpc] at hinStep
    cases hinStep with
    | connected => exact .identifying
    | requested hlistens hawaits | serving hawaits | refused hawaits => cases hawaits
  · rename_i i isLeader hpc
    split at hst
    · rename_i hgoes
      split at hst
      · rename_i request pc hrequest
        obtain ⟨w₁, hsend, rfl, rfl⟩ := TransitionSystem.exists_of_map_eq_some hst
        have hrequests : a.Requests i isLeader :=
          ⟨hgoes.1, hgoes.2, by rw [hrequest, Option.isSome_some]⟩
        refine ⟨h.threadSend hsend (by rw [hpc]; exact not_not.2 hrequests)
          (by rw [hpc]; rfl) ?_, by simp⟩
        intro handler inbox flag hinStep
        rw [hpc] at hinStep
        cases hinStep with
        | ready hlistens => exact .requested hlistens (awaits_of_requestOf hrequest)
        | requested hlistens hawaits | serving hawaits | refused hawaits => cases hawaits
      · rename_i hnone
        simp only [Option.some.injEq, Prod.mk.injEq] at hst
        obtain ⟨rfl, rfl⟩ := hst
        refine ⟨h.goOn fun hrequests => ?_, by simp⟩
        have hsome := hrequests.2.2
        rw [requestOf_eq_none hnone] at hsome
        cases hsome
    · simp only [Option.some.injEq, Prod.mk.injEq] at hst
      obtain ⟨rfl, rfl⟩ := hst
      exact ⟨h.goOn trivial, by simp⟩
  · obtain ⟨t, hexpects, hrecv⟩ := Option.bind_eq_some_iff.1 hst
    exact h.threadRecv hrecv hexpects

/-- **One step**: client and handler stay at corresponding points, and what is decoded was sent
so. -/
theorem Coherent.step (h : w.Coherent a) (hok : a.LeaderInfoFits w l)
    (hst : w.act net a l = some (w', es)) : w'.Coherent a ∧ ∀ d ∈ es, d.Agrees := by
  cases l with
  | update s md =>
      simp only [Handshake.act] at hst
      split at hst
      · simp only [Option.some.injEq, Prod.mk.injEq] at hst
        obtain ⟨rfl, rfl⟩ := hst
        exact ⟨h, by simp⟩
      · cases hst
  | fail leg n =>
      refine h.move hst fun conn' hconn _ _ hcoherent => ?_
      rw [← Option.some.inj hconn]
      exact hcoherent.fail n
  | init connects =>
      obtain ⟨w₁, hinit, rfl, rfl⟩ := TransitionSystem.exists_of_map_eq_some hst
      exact ⟨.init hinit, by simp⟩
  | thread succeeds => exact h.threadBody hst
  | identifySender leg =>
      exact h.move hst fun _ hconn _ _ hcoherent => hcoherent.identifySender hconn
  | sendIsLeader leg => exact h.move hst fun _ hconn _ _ hcoherent => hcoherent.sendIsLeader hconn
  | testLeader leg =>
      exact h.move hst fun _ hconn hleg hopen hcoherent =>
        hcoherent.testLeader (hok hleg hopen) hconn
  | getLeaderIp leg =>
      exact h.move hst fun _ hconn _ _ hcoherent =>
        hcoherent.looks (Connection.getLeaderIp_looks hconn)
  | getLeaderPort leg =>
      exact h.move hst fun _ hconn _ _ hcoherent =>
        hcoherent.looks (Connection.getLeaderPort_looks hconn)
  | sendLeaderInfo leg ips =>
      exact h.move hst fun _ hconn _ _ hcoherent => hcoherent.sendLeaderInfo hconn
  | receiveRequest leg =>
      exact h.move hst fun _ hconn _ _ hcoherent => hcoherent.receiveRequest hconn
  | serve leg engineerId adminId =>
      exact h.move hst fun _ hconn _ _ hcoherent => hcoherent.serve hconn
  | hangUp leg =>
      simp only [Handshake.act] at hst
      split at hst
      · rename_i hgone
        refine h.move hst fun _ hconn hleg hopen hcoherent => hcoherent.hangUp ?_ hconn
        exact hgone.resolve_right (not_not.2 ⟨hleg, hopen⟩)
      · cases hst

end Handshake

/-! ## Runs -/

section Runs

variable {net : Network} {a : ThreadArgs} {w : Handshake} {tr : List Decoded}

theorem coherent_of_run (hrun : (handshake net a).Run a.LeaderInfoFits w tr) :
    w.Coherent a ∧ ∀ d ∈ tr, d.Agrees := by
  refine TransitionSystem.Run.invariant
    (I := fun w tr => w.Coherent a ∧ ∀ d ∈ tr, d.Agrees) ?_ ?_ hrun
  · rintro _ ⟨metadata, rfl⟩
    exact ⟨.of_closed rfl, by simp⟩
  · intro w tr l w' es _ ⟨hcoherent, hagrees⟩ hok hst
    obtain ⟨hcoherent', hagrees'⟩ := hcoherent.step hok hst
    exact ⟨hcoherent', fun d hd => (List.mem_append.1 hd).elim (hagrees d) (hagrees' d)⟩

/-- **Handshake agreement**, as long as a `LeaderInfo` is sent only where the client reads it or
reads nothing any more. -/
theorem handshake_agreement (hrun : (handshake net a).Run a.LeaderInfoFits w tr) :
    ∀ d ∈ tr, d.Agrees :=
  (coherent_of_run hrun).2

end Runs

/-! ## A client of the cluster -/

namespace Handshake

variable {net : Network} {a : ThreadArgs} {w w' : Handshake} {es : List Decoded}

lemma move_metadata {leg : Leg} {conn : Option Connection}
    (h : w.move leg conn = some (w', es)) : w'.metadata = w.metadata := by
  obtain ⟨conn', -, rfl, -⟩ := TransitionSystem.exists_of_map_eq_some h
  rfl

lemma init_metadata {connects : Bool} (h : w.init net connects = some w') :
    w'.metadata = w.metadata := by
  unfold init at h
  split at h
  · split at h
    · obtain ⟨s, -, rfl⟩ := Option.map_eq_some_iff.1 h
      rfl
    · obtain rfl := Option.some.inj h
      rfl
  · cases h

lemma threadSend_metadata {m : CustomerMessage} {succeeds : Bool} {sent failed : ThreadPc}
    (h : w.threadSend m succeeds sent failed = some w') : w'.metadata = w.metadata := by
  unfold threadSend at h
  split at h
  · split at h
    · obtain rfl := Option.some.inj h
      rfl
    · cases h
  · split at h
    · obtain rfl := Option.some.inj h
      rfl
    · cases h

lemma threadRecv_metadata {type : MessageType} {succeeds : Bool}
    (h : w.threadRecv a type succeeds = some (w', es)) : w'.metadata = w.metadata := by
  unfold threadRecv at h
  split at h
  · split at h
    · obtain ⟨rfl, -⟩ := Prod.mk.inj (Option.some.inj h)
      rfl
    · cases h
  · split at h
    · obtain ⟨rfl, -⟩ := Prod.mk.inj (Option.some.inj h)
      rfl
    · cases h

lemma threadBody_metadata {succeeds : Bool} (h : w.threadBody a succeeds = some (w', es)) :
    w'.metadata = w.metadata := by
  unfold threadBody at h
  split at h
  · obtain ⟨w₁, hsend, rfl, -⟩ := TransitionSystem.exists_of_map_eq_some h
    exact threadSend_metadata hsend
  · split at h
    · split at h
      · obtain ⟨w₁, hsend, rfl, -⟩ := TransitionSystem.exists_of_map_eq_some h
        exact threadSend_metadata hsend
      · obtain ⟨rfl, -⟩ := Prod.mk.inj (Option.some.inj h)
        rfl
    · obtain ⟨rfl, -⟩ := Prod.mk.inj (Option.some.inj h)
      rfl
  · obtain ⟨type, -, hrecv⟩ := Option.bind_eq_some_iff.1 h
    exact threadRecv_metadata hrecv

/-- The servers of a client thread are those of the cluster. -/
def among (w : Handshake) (c : Cluster) : Handshake :=
  { w with metadata := fun s => (c.server s).metadata }

/-- A step of a client thread or of one of its handlers.  The metadata change with the cluster. -/
def turn (net : Network) (a : ThreadArgs) (p : Cluster × Handshake) :
    HandshakeLabel → Option (Handshake × List Decoded)
  | .update _ _ => none
  | l => (p.2.among p.1).act net a l

lemma turn_cases {p : Cluster × Handshake} {l : HandshakeLabel}
    (h : turn net a p l = some (w', es)) :
    (p.2.among p.1).act net a l = some (w'.among p.1, es) := by
  have hmetadata : w'.metadata = (p.2.among p.1).metadata := by
    cases l with
    | update s md => cases h
    | init connects =>
        obtain ⟨w₁, hinit, rfl, -⟩ := TransitionSystem.exists_of_map_eq_some h
        exact init_metadata hinit
    | thread succeeds => exact threadBody_metadata h
    | hangUp leg =>
        simp only [turn, act] at h
        split at h
        · exact move_metadata h
        · cases h
    | _ =>
        simp only [turn, act] at h
        exact move_metadata h
  have hact : (p.2.among p.1).act net a l = some (w', es) := by
    cases l with
    | update s md => cases h
    | _ => exact h
  have hamong : w'.among p.1 = { w' with metadata := (p.2.among p.1).metadata } := rfl
  rw [hact, hamong, ← hmetadata]

end Handshake

/-- **The cluster, with a client thread.** -/
def attended (cfg : Config) (net : Network) (a : ThreadArgs) :
    TransitionSystem (Cluster × Handshake) (Label ⊕ HandshakeLabel) (Event ⊕ Decoded) :=
  (system cfg).withCompanion (startThread a fun s => { factoryId := s }) (fun _ _ => true)
    (Handshake.turn net a)

/-- `LeaderInfoFits`, with the metadata the servers of the cluster have. -/
def LeaderInfoFitsAmong (a : ThreadArgs) (p : Cluster × Handshake) :
    Label ⊕ HandshakeLabel → Prop
  | .inl _ => True
  | .inr l => a.LeaderInfoFits (p.2.among p.1) l

section Cluster

variable {cfg : Config} {ok : Cluster → Label → Prop} {c c' : Cluster} {events es : List Event}
  {l : Label} {net : Network} {a : ThreadArgs}

/-- A step of the cluster is, for its client threads, a change of metadata. -/
lemma update_of_cluster_step (net : Network) (a : ThreadArgs) (w : Handshake)
    (hrun : (system cfg).Run ok c events) (hok : ok c l)
    (hst : (system cfg).step c l = some (c', es)) :
    ∃ q md, (w.among c).act net a (.update q md) = some (w.among c', []) := by
  obtain ⟨q, hq, hothers⟩ := step_others hrun hst
  have hplaced := (wellFormed hrun hq).placed
  have hplaced' := (wellFormed (hrun.step hok hst) hq).placed
  have hmetadata : Function.update (w.among c).metadata q (c'.server q).metadata =
      (w.among c').metadata := by
    funext s
    by_cases hs : s = q
    · rw [hs, Function.update_self]
      rfl
    · rw [Function.update_of_ne hs]
      exact (hothers s hs).symm
  have hsame : (c'.server q).metadata.factoryId = (c.server q).metadata.factoryId ∧
      (c'.server q).metadata.neighbors = (c.server q).metadata.neighbors :=
    ⟨hplaced'.factoryId.trans hplaced.factoryId.symm,
      hplaced'.neighbors.trans hplaced.neighbors.symm⟩
  refine ⟨q, (c'.server q).metadata, (if_pos hsame).trans ?_⟩
  rw [hmetadata]
  rfl

/-- **A client thread of the cluster is one among servers in any state.** -/
theorem attended_simulation (cfg : Config) (net : Network) (a : ThreadArgs) :
    TransitionSystem.Simulation (attended cfg net a) (LeaderInfoFitsAmong a) (handshake net a)
      a.LeaderInfoFits Sum.getRight? fun p w => w = p.2.among p.1 := by
  constructor
  · rintro ⟨c, _⟩ ⟨-, rfl⟩
    exact ⟨_, ⟨_, rfl⟩, rfl⟩
  · rintro p tr l ⟨c', w'⟩ es w ds hrun - hok hst rfl
    have hcluster : (system cfg).Run TransitionSystem.anyStep p.1 (tr.filterMap Sum.getLeft?) :=
      (hrun.mono fun _ l _ => by cases l <;> trivial).forgetCompanion
    rcases TransitionSystem.withCompanion_step_cases hst with
      ⟨l', es', rfl, -, hmoved, rfl, rfl⟩ | ⟨k, es', rfl, hturn, rfl, rfl⟩
    · obtain ⟨q, md, hupdate⟩ := update_of_cluster_step net a p.2 hcluster trivial hmoved
      rw [TransitionSystem.filterMap_getRight?_map_inl]
      exact ⟨_, .single ⟨.update q md, [], trivial, hupdate, rfl⟩, rfl⟩
    · rw [TransitionSystem.filterMap_getRight?_map_inr]
      exact ⟨_, .single ⟨k, es', hok, Handshake.turn_cases hturn, rfl⟩, rfl⟩

/-- What a client of the cluster decodes was sent so, while its handlers and the servers' other
threads take turns. -/
theorem decoded_in_cluster {p : Cluster × Handshake} {tr : List (Event ⊕ Decoded)}
    (hrun : (attended cfg net a).Run (LeaderInfoFitsAmong a) p tr) :
    ∀ d, .inr d ∈ tr → d.Agrees := by
  obtain ⟨w, hclient, -⟩ := (attended_simulation cfg net a).run hrun
  intro d hd
  exact (coherent_of_run hclient).2 d (List.mem_filterMap.2 ⟨_, hd, rfl⟩)

end Cluster

/-! ## Three servers on one machine -/

def localNetwork : Network := fun ip port =>
  if ip = "127.0.0.1" ∧ 5000 ≤ port ∧ port < 5003 then some (port - 5000) else none

/-- Server `s` takes `leader` for the leader. -/
def localServer (leader s : ℤ) : ServerMetadata where
  factoryId := s
  leaderId := leader
  neighbors := ([0, 1, 2].filter (· ≠ s)).map fun id => ⟨id.toNat, id, "127.0.0.1", 5000 + id⟩

/-- One update, with server 1 as the first address. -/
def oneOrder : ThreadArgs := ⟨"127.0.0.1", 5001, 7, 1, updateRequest⟩

/-- The thread connects, and the flag is sent. -/
def greet (leg : Leg) : List HandshakeLabel :=
  [.init true, .thread true, .identifySender leg, .sendIsLeader leg]

/-- The handler finds that it is not the leader, and sends the `LeaderInfo`.  The leader is neighbor
`k` of its server. -/
def announce (leg : Leg) (k : ℕ) : List HandshakeLabel :=
  [.testLeader leg] ++ List.replicate (k + 1) (.getLeaderIp leg) ++
    List.replicate (k + 1) (.getLeaderPort leg) ++ [.sendLeaderInfo leg fun _ => 0]

/-- An update that is redirected from server 1 to server 0. -/
theorem handshake_agreement_redirected : ∃ w tr,
    (handshake localNetwork oneOrder).Run oneOrder.LeaderInfoFits w tr ∧
    tr.map Decoded.type = [.isLeader, .leaderInfo, .isLeader, .laptopInfo] ∧
    ∀ d ∈ tr, d.Agrees := by
  obtain ⟨w, tr, hrun, htypes⟩ := TransitionSystem.run_of_exec
    (handshake localNetwork oneOrder) oneOrder.LeaderInfoFits
    (startThread oneOrder (localServer 0)) ⟨_, rfl⟩
    (greet .first ++ announce .first 0 ++ [.thread true, .thread true] ++ greet .redirected ++
      [.testLeader .redirected, .thread true, .thread true, .receiveRequest .redirected,
        .serve .redirected 4 0, .thread true])
    (P := fun _ tr => tr.map Decoded.type = [.isLeader, .leaderInfo, .isLeader, .laptopInfo])
    (by decide +kernel)
  exact ⟨w, tr, hrun, htypes, handshake_agreement hrun⟩

/-- Server 0 is deposed by server 2 before the redirected client connects.  It sends the flag `1`
and the address of server 2, which the client takes for the laptop it ordered. -/
theorem leader_info_taken_for_laptop : ∃ w tr,
    (handshake localNetwork oneOrder).Run TransitionSystem.anyStep w tr ∧
    ⟨.laptopInfo, octets ServerMessage.marshal (.leaderInfo ⟨127, 0, 0, 1, 5002⟩)⟩ ∈ tr ∧
    ¬ ∀ d ∈ tr, d.Agrees := by
  obtain ⟨w, tr, hrun, htaken⟩ := TransitionSystem.run_of_exec (handshake localNetwork oneOrder)
    TransitionSystem.anyStep (startThread oneOrder (localServer 0)) ⟨_, rfl⟩
    (greet .first ++ announce .first 0 ++ [.thread true, .thread true] ++
      [.update 0 (localServer 2 0)] ++ greet .redirected ++ announce .redirected 1 ++
      [.thread true, .thread true, .thread true])
    (P := fun _ tr =>
      ⟨.laptopInfo, octets ServerMessage.marshal (.leaderInfo ⟨127, 0, 0, 1, 5002⟩)⟩ ∈ tr)
    (by decide +kernel)
  have hbyte : ⟨.leaderInfo ⟨127, 0, 0, 1, 5002⟩, 0⟩ ∈
      octets ServerMessage.marshal (.leaderInfo ⟨127, 0, 0, 1, 5002⟩) := by decide
  exact ⟨w, tr, hrun, htaken, fun hagrees =>
    Decoded.not_agrees hbyte (by decide) (hagrees _ htaken)⟩

/-- One read, from server 0. -/
def oneRead : ThreadArgs := ⟨"127.0.0.1", 5000, 7, 1, readRequest⟩

/-- Server 0 is deposed between the two calls of `IsLeader`.  The client takes the first two
numbers of the address of server 2 for a record. -/
theorem leader_info_taken_for_record : ∃ w tr,
    (handshake localNetwork oneRead).Run TransitionSystem.anyStep w tr ∧
    ⟨.customerRecord,
      (octets ServerMessage.marshal (.leaderInfo ⟨127, 0, 0, 1, 5002⟩)).take 8⟩ ∈ tr ∧
    ¬ ∀ d ∈ tr, d.Agrees := by
  obtain ⟨w, tr, hrun, htaken⟩ := TransitionSystem.run_of_exec (handshake localNetwork oneRead)
    TransitionSystem.anyStep (startThread oneRead (localServer 0)) ⟨_, rfl⟩
    (greet .first ++ [.update 0 (localServer 2 0)] ++ announce .first 1 ++
      [.thread true, .thread true, .thread true])
    (P := fun _ tr => ⟨.customerRecord,
      (octets ServerMessage.marshal (.leaderInfo ⟨127, 0, 0, 1, 5002⟩)).take 8⟩ ∈ tr)
    (by decide +kernel)
  have hbyte : ⟨.leaderInfo ⟨127, 0, 0, 1, 5002⟩, 0⟩ ∈
      (octets ServerMessage.marshal (.leaderInfo ⟨127, 0, 0, 1, 5002⟩)).take 8 := by decide
  exact ⟨w, tr, hrun, htaken, fun hagrees =>
    Decoded.not_agrees hbyte (by decide) (hagrees _ htaken)⟩

end LaptopRaft
