import LaptopRaft.Model.CommandLine
import LaptopRaft.Service.Session

/-!
# Requests and replies in order

Each request of a client thread is received once, by the handler of the connection the thread is
on, and is answered once, in the order of arrival (`requests_in_order`).  The thread may give up in
between, and then it closes its connection (`thread_completes`).

None of that needs the agreement on the leader flag; what the thread makes of the replies does
(`replies_in_order`).
-/

namespace LaptopRaft

/-! ## The invariant -/

namespace Session

/-- The requests that the server has received, or will. -/
def asked (m : Session) (w : Handshake) (leg : Leg) : List CustomerRequest :=
  m.received leg ++ requestsOf (w.connection leg).inbox

/-- There has not been a connection. -/
structure Untouched (m : Session) (w : Handshake) (leg : Leg) : Prop where
  pc : (w.connection leg).pc = .returned
  asked : m.asked w leg = []
  sent : m.sent leg = []
  read : m.read leg = []

/-- The thread has not opened the connection. -/
def Ahead (t : ClientThread) (leg : Leg) : Prop :=
  leg ≠ t.leg ∧ t.leg = .first ∨ ∃ ip port, t.pc = .init .first ip port

structure Sound (a : ThreadArgs) (w : Handshake) (m : Session) (tr : List Decoded) : Prop where
  balanced : ∀ leg, Balanced (w.connection leg) (m.received leg) (m.sent leg) (m.read leg)
  progress : ∃ k, m.asked w w.thread.leg = a.requests k ∧
    Progress a w.thread.isOpen w.current.failed k tr w.thread.pc
  elsewhere : ∀ leg, leg ≠ w.thread.leg → m.asked w leg = []
  untouched : ∀ leg, Ahead w.thread leg → m.Untouched w leg
  onFirst : w.thread.pc = .recvLeaderInfo ∨ (∃ leg ip port, w.thread.pc = .init leg ip port) →
    w.thread.leg = .first
  trace : tr = m.read .first ++ m.read .redirected

variable {net : Network} {a : ThreadArgs} {w w' : Handshake} {m : Session} {tr es : List Decoded}
  {leg : Leg}

lemma receive_nil (m : Session) (leg : Leg) : m.receive leg [] = m := by simp [receive]

lemma send_nil (m : Session) (leg : Leg) : m.send leg [] = m := by simp [send]

lemma decode_nil (m : Session) (leg : Leg) : m.decode leg [] = m := by simp [decode]

lemma sound_start (a : ThreadArgs) (metadata : ℤ → ServerMetadata) :
    Sound a (startThread a metadata) {} [] where
  balanced leg := ⟨.nil _, @Serves.returned [] [] [] [] (by simp) .nil⟩
  progress := ⟨0, rfl, .greets trivial rfl rfl⟩
  elsewhere leg _ := rfl
  untouched leg _ := ⟨rfl, rfl, rfl, rfl⟩
  onFirst _ := rfl
  trace := rfl

/-- All requests are of a type that is answered. -/
lemma Sound.requestType (h : Sound a w m tr) {r : CustomerRequest} (hr : r ∈ m.asked w leg) :
    r.requestType = updateRequest ∨ r.requestType = readRequest := by
  by_cases hleg : leg = w.thread.leg
  · obtain ⟨k, hk, -⟩ := h.progress
    rw [hleg, hk] at hr
    exact ThreadArgs.requestType_of_mem hr
  · rw [h.elsewhere leg hleg] at hr
    cases hr

section Handler

variable {conn' : Connection} {incoming : List CustomerRequest} {outgoing : List ServerMessage}

/-- A handler takes requests that were asked already. -/
lemma asked_handler (hst : HandlerStep (w.connection leg) conn' incoming outgoing) (leg' : Leg) :
    ((m.receive leg incoming).send leg outgoing).asked (w.setConnection leg conn') leg' =
      m.asked w leg' := by
  by_cases hleg : leg' = leg
  · subst hleg
    simp only [asked, receive, send, Handshake.setConnection, Function.update_self]
    rw [List.append_assoc, hst.inbox]
  · simp only [asked, receive, send, Handshake.setConnection, Function.update_of_ne hleg]

/-- **A handler moves.** -/
lemma Sound.handler (h : Sound a w m tr)
    (hst : HandlerStep (w.connection leg) conn' incoming outgoing) :
    Sound a (w.setConnection leg conn') ((m.receive leg incoming).send leg outgoing) tr where
  balanced leg' := by
    by_cases hleg : leg' = leg
    · subst hleg
      simp only [receive, send, Handshake.setConnection, Function.update_self]
      refine (h.balanced leg').step hst fun r hr => ?_
      have hasked : r ∈ m.asked w leg' := by
        rw [asked, ← hst.inbox]
        exact List.mem_append_right _ (List.mem_append_left _ hr)
      exact h.requestType hasked
    · simp only [receive, send, Handshake.setConnection, Function.update_of_ne hleg]
      exact h.balanced leg'
  progress := by
    obtain ⟨k, hk, hprogress⟩ := h.progress
    have hfailed : (w.setConnection leg conn').current.failed = w.current.failed := by
      by_cases hleg : w.thread.leg = leg
      · subst hleg
        simp only [Handshake.current, Handshake.setConnection, Function.update_self]
        exact hst.failed
      · simp only [Handshake.current, Handshake.setConnection, Function.update_of_ne hleg]
    refine ⟨k, ?_, ?_⟩
    · rw [asked_handler hst]
      exact hk
    · rw [hfailed]
      exact hprogress
  elsewhere leg' hleg' := by
    rw [asked_handler hst]
    exact h.elsewhere leg' hleg'
  untouched leg' hahead := by
    obtain ⟨hpc, hasked, hsent, hread⟩ := h.untouched leg' hahead
    have hleg : leg' ≠ leg := by
      rintro rfl
      exact hst.started hpc
    refine ⟨?_, by rw [asked_handler hst, hasked], ?_, hread⟩
    · simp only [Handshake.setConnection, Function.update_of_ne hleg, hpc]
    · simp only [receive, send, Function.update_of_ne hleg, hsent]
  onFirst := h.onFirst
  trace := h.trace

/-- A connection fails. -/
lemma Sound.fail (h : Sound a w m tr) (leg : Leg) (n : ℕ) :
    Sound a (w.setConnection leg ((w.connection leg).fail n)) m tr := by
  have hasked : ∀ leg', m.asked (w.setConnection leg ((w.connection leg).fail n)) leg' =
      m.asked w leg' := by
    intro leg'
    by_cases hleg : leg' = leg
    · subst hleg
      simp only [asked, Handshake.setConnection, Function.update_self]
      rfl
    · simp only [asked, Handshake.setConnection, Function.update_of_ne hleg]
  constructor
  · intro leg'
    by_cases hleg : leg' = leg
    · subst hleg
      simp only [Handshake.setConnection, Function.update_self]
      exact (h.balanced leg').fail n
    · simp only [Handshake.setConnection, Function.update_of_ne hleg]
      exact h.balanced leg'
  · obtain ⟨k, hk, hprogress⟩ := h.progress
    refine ⟨k, (hasked _).trans hk, ?_⟩
    by_cases hleg : w.thread.leg = leg
    · subst hleg
      simp only [Handshake.current, Handshake.setConnection, Function.update_self]
      exact hprogress.fail
    · simp only [Handshake.current, Handshake.setConnection, Function.update_of_ne hleg]
      exact hprogress
  · exact fun leg' hleg' => (hasked leg').trans (h.elsewhere leg' hleg')
  · intro leg' hahead
    obtain ⟨hpc, hnone, hsent, hread⟩ := h.untouched leg' hahead
    refine ⟨?_, (hasked leg').trans hnone, hsent, hread⟩
    by_cases hleg : leg' = leg
    · subst hleg
      simp only [Handshake.setConnection, Function.update_self]
      exact hpc
    · simp only [Handshake.setConnection, Function.update_of_ne hleg, hpc]
  · exact h.onFirst
  · exact h.trace

end Handler

/-- **The thread moves**, on the connection it has. -/
lemma Sound.thread (h : Sound a w m tr) {conn' : Connection} {pc' : ThreadPc} {isOpen' : Bool}
    (hbalanced : Balanced conn' (m.received w.thread.leg) (m.sent w.thread.leg)
      (m.read w.thread.leg ++ es))
    (hfresh : ∀ ip port, pc' ≠ .init .first ip port)
    (honFirst : pc' = .recvLeaderInfo ∨ (∃ leg ip port, pc' = .init leg ip port) →
      w.thread.leg = .first)
    (hprogress : ∀ k, m.asked w w.thread.leg = a.requests k →
      Progress a w.thread.isOpen w.current.failed k tr w.thread.pc → ∃ k',
        m.received w.thread.leg ++ requestsOf conn'.inbox = a.requests k' ∧
        Progress a isOpen' conn'.failed k' (tr ++ es) pc') :
    Sound a
      { w.setConnection w.thread.leg conn' with
        thread := { w.thread with pc := pc', isOpen := isOpen' } }
      (m.decode w.thread.leg es) (tr ++ es) where
  balanced leg' := by
    by_cases hleg : leg' = w.thread.leg
    · subst hleg
      simp only [decode, Handshake.setConnection, Function.update_self]
      exact hbalanced
    · simp only [decode, Handshake.setConnection, Function.update_of_ne hleg]
      exact h.balanced leg'
  progress := by
    obtain ⟨k, hk, hold⟩ := h.progress
    obtain ⟨k', hk', hnew⟩ := hprogress k hk hold
    refine ⟨k', ?_, ?_⟩
    · simp only [asked, decode, Handshake.setConnection, Function.update_self]
      exact hk'
    · simp only [Handshake.current, Handshake.setConnection, Function.update_self]
      exact hnew
  elsewhere leg' hleg' := by
    simp only [asked, decode, Handshake.setConnection, Function.update_of_ne hleg']
    exact h.elsewhere leg' hleg'
  untouched leg' hahead := by
    rcases hahead with ⟨hleg, hfirst⟩ | ⟨ip, port, hpc⟩
    · obtain ⟨hpc, hnone, hsent, hread⟩ := h.untouched leg' (Or.inl ⟨hleg, hfirst⟩)
      refine ⟨?_, ?_, hsent, ?_⟩
      · simp only [Handshake.setConnection, Function.update_of_ne hleg, hpc]
      · simp only [asked, decode, Handshake.setConnection, Function.update_of_ne hleg]
        exact hnone
      · simp only [decode, Function.update_of_ne hleg, hread]
    · exact absurd hpc (hfresh ip port)
  onFirst := honFirst
  trace := by
    rw [h.trace]
    cases hleg : w.thread.leg with
    | first =>
        have hread := (h.untouched .redirected (Or.inl ⟨by rw [hleg]; simp, hleg⟩)).read
        simp [decode, hread]
    | redirected => simp [decode]

/-- The thread goes on, or closes its connection, and nothing is sent or read. -/
lemma Sound.turn (h : Sound a w m tr) {pc' : ThreadPc} {isOpen' : Bool}
    (hfresh : ∀ ip port, pc' ≠ .init .first ip port)
    (honFirst : pc' = .recvLeaderInfo ∨ (∃ leg ip port, pc' = .init leg ip port) →
      w.thread.leg = .first)
    (hprogress : ∀ k, Progress a w.thread.isOpen w.current.failed k tr w.thread.pc →
      Progress a isOpen' w.current.failed k tr pc') :
    Sound a { w with thread := { w.thread with pc := pc', isOpen := isOpen' } } m tr := by
  have hmove : Sound a
      { w.setConnection w.thread.leg w.current with
        thread := { w.thread with pc := pc', isOpen := isOpen' } }
      (m.decode w.thread.leg []) (tr ++ []) :=
    h.thread (by rw [List.append_nil]; exact h.balanced _) hfresh honFirst fun k hk hold =>
      ⟨k, hk, by rw [List.append_nil]; exact hprogress k hold⟩
  have hsame : w.setConnection w.thread.leg w.current = w := by
    simp [Handshake.setConnection, Handshake.current]
  rw [decode_nil, List.append_nil, hsame] at hmove
  exact hmove

/-- The thread opens a connection. -/
lemma Sound.init (h : Sound a w m tr) {connects : Bool}
    (hst : w.init net connects = some w') : Sound a w' m tr := by
  unfold Handshake.init at hst
  split at hst
  · rename_i leg ip port hpc
    split at hst
    · obtain ⟨s, -, rfl⟩ := Option.map_eq_some_iff.1 hst
      have hfirst : w.thread.leg = .first := h.onFirst (Or.inr ⟨leg, ip, port, hpc⟩)
      have hahead : Ahead w.thread leg := by
        cases leg with
        | first => exact Or.inr ⟨ip, port, hpc⟩
        | redirected => exact Or.inl ⟨by rw [hfirst]; simp, hfirst⟩
      obtain ⟨k, hk, hprogress⟩ := h.progress
      obtain ⟨rfl, hn⟩ := hprogress.of_greets (by rw [hpc]; trivial)
      obtain ⟨-, hnone, hsent, hread⟩ := h.untouched leg hahead
      have hreceived : m.received leg = [] := (List.append_eq_nil_iff.1 hnone).1
      constructor
      · intro leg'
        by_cases hleg : leg' = leg
        · subst hleg
          simp only [Handshake.setConnection, Function.update_self, hreceived, hsent, hread]
          exact ⟨.nil _, .greets trivial (by simp)⟩
        · simp only [Handshake.setConnection, Function.update_of_ne hleg]
          exact h.balanced leg'
      · refine ⟨0, ?_, .greets trivial rfl hn⟩
        simp only [asked, Handshake.setConnection, Function.update_self, hreceived]
        rfl
      · intro leg' hleg'
        simp only [asked, Handshake.setConnection, Function.update_of_ne hleg']
        by_cases hleg : leg' = w.thread.leg
        · rw [hleg]
          exact hk
        · exact h.elsewhere leg' hleg
      · rintro leg' (⟨hleg, hopened⟩ | ⟨ip, port, hpc'⟩)
        · obtain rfl : leg = .first := hopened
          have hahead' : Ahead w.thread leg' := Or.inl ⟨by rw [hfirst]; exact hleg, hfirst⟩
          obtain ⟨hpc', hnone', hsent', hread'⟩ := h.untouched leg' hahead'
          refine ⟨?_, ?_, hsent', hread'⟩
          · simp only [Handshake.setConnection, Function.update_of_ne hleg, hpc']
          · simp only [asked, Handshake.setConnection, Function.update_of_ne hleg]
            exact hnone'
        · cases hpc'
      · rintro (hpc' | ⟨leg', ip, port, hpc'⟩) <;> cases hpc'
      · exact h.trace
    · obtain rfl := Option.some.inj hst
      exact h.turn (by simp) (by simp) fun k hold => hold.close
  · cases hst

/-- The thread sends a message. -/
lemma Sound.threadSend (h : Sound a w m tr) {message : CustomerMessage} {succeeds : Bool}
    {sent failed : ThreadPc} (hst : w.threadSend message succeeds sent failed = some w')
    (hfresh : ∀ pc', pc' = sent ∨ pc' = failed → ∀ leg ip port, pc' ≠ .init leg ip port)
    (hinfo : ∀ pc', pc' = sent ∨ pc' = failed → pc' ≠ .recvLeaderInfo)
    (hsent : ∀ k, Progress a w.thread.isOpen w.current.failed k tr w.thread.pc → ∃ k',
      (w.current.failed = true → k' = k) ∧
      (w.current.failed = false → a.requests k' = a.requests k ++ requestsOf [message]) ∧
        Progress a w.thread.isOpen w.current.failed k' tr sent)
    (hfailed : ∀ k, Progress a w.thread.isOpen w.current.failed k tr w.thread.pc →
      Progress a false w.current.failed k tr failed) : Sound a w' m tr := by
  unfold Handshake.threadSend at hst
  split at hst
  · split at hst
    · obtain rfl := Option.some.inj hst
      have hdeliver : (w.current.deliver message).stream = w.current.stream ∧
          (w.current.deliver message).failed = w.current.failed ∧
          (w.current.deliver message).pc = w.current.pc ∧
          requestsOf (w.current.deliver message).inbox = requestsOf w.current.inbox ++
            if w.current.failed then [] else requestsOf [message] := by
        unfold Connection.deliver
        split <;> simp [requestsOf_append]
      obtain ⟨hstream, hsame, hpc, hinbox⟩ := hdeliver
      have hmove : Sound a
          { w.setConnection w.thread.leg (w.current.deliver message) with
            thread := { w.thread with pc := sent, isOpen := w.thread.isOpen } }
          (m.decode w.thread.leg []) (tr ++ []) := by
        refine h.thread ?_ (fun ip port => hfresh sent (Or.inl rfl) _ ip port) ?_
          fun k hk hold => ?_
        · obtain ⟨hflight, hserves⟩ := h.balanced w.thread.leg
          refine ⟨?_, hpc ▸ hserves⟩
          rw [List.append_nil, hstream, hsame]
          exact hflight
        · rintro (hinfo' | ⟨leg, ip, port, hinit⟩)
          · exact absurd hinfo' (hinfo sent (Or.inl rfl))
          · exact absurd hinit (hfresh sent (Or.inl rfl) leg ip port)
        · obtain ⟨k', hlost, htaken, hnew⟩ := hsent k hold
          refine ⟨k', ?_, ?_⟩
          · rw [hinbox, ← List.append_assoc]
            split
            · rename_i hcut
              rw [List.append_nil, hlost hcut]
              exact hk
            · rename_i hcut
              rw [htaken (Bool.eq_false_iff.2 hcut), ← hk]
              rfl
          · rw [hsame, List.append_nil]
            exact hnew
      rw [decode_nil, List.append_nil] at hmove
      exact hmove
    · cases hst
  · split at hst
    · obtain rfl := Option.some.inj hst
      refine h.turn (fun ip port => hfresh failed (Or.inr rfl) _ ip port) ?_ hfailed
      rintro (hinfo' | ⟨leg, ip, port, hinit⟩)
      · exact absurd hinfo' (hinfo failed (Or.inr rfl))
      · exact absurd hinit (hfresh failed (Or.inr rfl) leg ip port)
    · cases hst

/-- The thread receives. -/
lemma Sound.threadRecv (h : Sound a w m tr) {t : MessageType} {succeeds : Bool}
    (hst : w.threadRecv a t succeeds = some (w', es)) (hexpects : w.thread.pc.expects = some t) :
    Sound a w' (m.decode w.thread.leg es) (tr ++ es) := by
  have hfresh : ∀ bytes ip port,
      a.afterRecv w.thread.leg w.thread.pc bytes ≠ .init .first ip port := by
    intro bytes ip port
    cases hpc : w.thread.pc with
    | init | sendIdentifier | loop | returned => rw [hpc] at hexpects; cases hexpects
    | _ => simp only [ThreadArgs.afterRecv]; split <;> simp
  have honFirst : ∀ bytes, a.afterRecv w.thread.leg w.thread.pc bytes = .recvLeaderInfo ∨
      (∃ leg ip port, a.afterRecv w.thread.leg w.thread.pc bytes = .init leg ip port) →
      w.thread.leg = .first := by
    intro bytes hto
    cases hpc : w.thread.pc with
    | init | sendIdentifier | loop | returned => rw [hpc] at hexpects; cases hexpects
    | recvLeaderInfo => exact h.onFirst (Or.inl hpc)
    | recvIsLeader =>
        rw [hpc] at hto
        simp only [ThreadArgs.afterRecv] at hto
        split at hto
        · rename_i hfollower
          exact hfollower.1
        · simp at hto
    | order | readRecord =>
        rw [hpc] at hto
        simp only [ThreadArgs.afterRecv] at hto
        split at hto <;> simp at hto
  unfold Handshake.threadRecv at hst
  split at hst
  · split at hst
    · simp only [Option.some.injEq, Prod.mk.injEq] at hst
      obtain ⟨rfl, rfl⟩ := hst
      exact h.thread ((h.balanced w.thread.leg).recv t) (hfresh _) (honFirst _)
        fun k hk hold => ⟨k, hk, hold.recv hexpects⟩
    · cases hst
  · split at hst
    · simp only [Option.some.injEq, Prod.mk.injEq] at hst
      obtain ⟨rfl, rfl⟩ := hst
      rw [decode_nil, List.append_nil]
      exact h.turn (hfresh _) (honFirst _) fun k hold => hold.recvFails hexpects
    · cases hst

lemma Sound.threadBody (h : Sound a w m tr) {succeeds : Bool}
    (hst : w.threadBody a succeeds = some (w', es)) :
    Sound a w' (m.decode w.thread.leg es) (tr ++ es) := by
  unfold Handshake.threadBody at hst
  split at hst
  · rename_i hpc
    obtain ⟨w₁, hsend, rfl, rfl⟩ := TransitionSystem.exists_of_map_eq_some hst
    rw [decode_nil, List.append_nil]
    refine h.threadSend hsend (by simp) (by simp) (fun k hold => ?_) fun k hold => ?_
    · rw [hpc] at hold
      obtain ⟨hk, hn⟩ := hold.of_greets trivial
      exact ⟨k, fun _ => rfl, fun _ => (List.append_nil _).symm, .greets trivial hk hn⟩
    · rw [hpc] at hold
      obtain ⟨hk, hn⟩ := hold.of_greets trivial
      exact .greets trivial hk hn
  · rename_i i isLeader hpc
    split at hst
    · rename_i hgoes
      split at hst
      · rename_i request pc hrequest
        obtain ⟨w₁, hsend, rfl, rfl⟩ := TransitionSystem.exists_of_map_eq_some hst
        rw [decode_nil, List.append_nil]
        have hgivesUp : a.afterRecv w.thread.leg pc none = .returned := by
          rcases expects_of_requestOf hrequest with rfl | rfl <;> rfl
        rw [hgivesUp] at hsend
        refine h.threadSend hsend ?_ ?_ (fun k hold => ?_) fun k hold => hold.close
        · rcases expects_of_requestOf hrequest with rfl | rfl <;> simp
        · rcases expects_of_requestOf hrequest with rfl | rfl <;> simp
        · rw [hpc] at hold
          exact hold.send hgoes hrequest
      · rename_i hnone
        simp only [Option.some.injEq, Prod.mk.injEq] at hst
        obtain ⟨rfl, rfl⟩ := hst
        rw [decode_nil, List.append_nil]
        refine h.turn (by simp) (by simp) fun k hold => ?_
        rw [hpc] at hold
        exact hold.pass hnone
    · rename_i hends
      simp only [Option.some.injEq, Prod.mk.injEq] at hst
      obtain ⟨rfl, rfl⟩ := hst
      rw [decode_nil, List.append_nil]
      refine h.turn (by simp) (by simp) fun k hold => ?_
      rw [hpc] at hold
      exact hold.endLoop hends
  · obtain ⟨t, hexpects, hrecv⟩ := Option.bind_eq_some_iff.1 hst
    exact h.threadRecv hrecv hexpects

/-- The metadata are not part of it. -/
lemma Sound.update (h : Sound a w m tr) (metadata : ℤ → ServerMetadata) :
    Sound a { w with metadata := metadata } m tr := by
  obtain ⟨hbalanced, hprogress, helsewhere, huntouched, honFirst, htrace⟩ := h
  refine ⟨hbalanced, hprogress, helsewhere, fun leg hahead => ?_, honFirst, htrace⟩
  obtain ⟨hpc, hnone, hsent, hread⟩ := huntouched leg hahead
  exact ⟨hpc, hnone, hsent, hread⟩

/-- **One step.** -/
theorem Sound.step {l : HandshakeLabel} (h : Sound a w m tr)
    (hst : w.act net a l = some (w', es)) : Sound a w' (m.watch a w l) (tr ++ es) := by
  -- a step of the handler emits nothing
  have hmove : ∀ {leg op incoming outgoing}, w.move leg op = some (w', es) →
      (∀ conn', op = some conn' → HandlerStep (w.connection leg) conn' incoming outgoing) →
      Sound a w' ((m.receive leg incoming).send leg outgoing) (tr ++ es) := by
    intro leg op incoming outgoing hst hop
    obtain ⟨conn', hconn, rfl, rfl⟩ := TransitionSystem.exists_of_map_eq_some hst
    rw [List.append_nil]
    exact h.handler (hop conn' hconn)
  cases l with
  | update s md =>
      simp only [Handshake.act] at hst
      split at hst
      · simp only [Option.some.injEq, Prod.mk.injEq] at hst
        obtain ⟨rfl, rfl⟩ := hst
        rw [List.append_nil]
        exact h.update _
      · cases hst
  | fail leg n =>
      have hfails : w.move leg (some ((w.connection leg).fail n)) = some (w', es) := hst
      obtain ⟨conn', hconn, rfl, rfl⟩ := TransitionSystem.exists_of_map_eq_some hfails
      obtain rfl := Option.some.inj hconn
      rw [List.append_nil]
      exact h.fail leg n
  | init connects =>
      obtain ⟨w₁, hinit, rfl, rfl⟩ := TransitionSystem.exists_of_map_eq_some hst
      rw [List.append_nil]
      exact h.init hinit
  | thread succeeds =>
      have hes : ((w.threadBody a succeeds).map Prod.snd).getD [] = es := by
        rw [show w.threadBody a succeeds = some (w', es) from hst]
        rfl
      rw [watch, hes]
      exact h.threadBody hst
  | identifySender leg =>
      simpa [watch, receive_nil, send_nil] using hmove hst fun _ => .identifySender
  | sendIsLeader leg => simpa [watch, receive_nil] using hmove hst fun _ => .sendIsLeader
  | testLeader leg => simpa [watch, receive_nil, send_nil] using hmove hst fun _ => .testLeader
  | getLeaderIp leg =>
      simpa [watch, receive_nil, send_nil] using
        hmove hst fun _ hconn => .looks (Connection.getLeaderIp_looks hconn)
  | getLeaderPort leg =>
      simpa [watch, receive_nil, send_nil] using
        hmove hst fun _ hconn => .looks (Connection.getLeaderPort_looks hconn)
  | sendLeaderInfo leg ips => simpa [watch, receive_nil] using hmove hst fun _ => .sendLeaderInfo
  | receiveRequest leg => simpa [watch, send_nil] using hmove hst fun _ => .receiveRequest
  | serve leg engineerId adminId => simpa [watch, receive_nil] using hmove hst fun _ => .serve
  | hangUp leg =>
      simp only [Handshake.act] at hst
      split at hst
      · simpa [watch, receive_nil, send_nil] using hmove hst fun _ => .hangUp
      · cases hst

/-- **A whole run.** -/
theorem sound_of_run {ok : Handshake × Session → HandshakeLabel → Prop} {p : Handshake × Session}
    (hrun : (session net a).Run ok p tr) : Sound a p.1 p.2 tr := by
  refine TransitionSystem.Run.invariant (I := fun p tr => Sound a p.1 p.2 tr) ?_ ?_ hrun
  · rintro ⟨w, m⟩ ⟨⟨metadata, rfl⟩, rfl⟩
    exact sound_start a metadata
  · rintro ⟨w, m⟩ tr l ⟨w', m'⟩ es _ h _ hst
    obtain ⟨hact, rfl⟩ := TransitionSystem.observed_step_iff.1 hst
    exact h.step hact

end Session

/-! ## Runs -/

section Runs

variable {net : Network} {a : ThreadArgs} {w : Handshake} {m : Session} {tr : List Decoded}
  {leg : Leg}

/-- Everything that was received, and where: on the connection the thread has. -/
def Session.allReceived (m : Session) : List CustomerRequest :=
  m.received .first ++ m.received .redirected

lemma prefix_requests {k : ℕ} {requests : List CustomerRequest} (h : requests <+: a.requests k) :
    requests = a.requests requests.length := by
  have htake := List.prefix_iff_eq_take.1 h
  have hlength : requests.length ≤ k := by
    simpa [ThreadArgs.requests] using h.length_le
  calc requests = (a.requests k).take requests.length := htake
    _ = a.requests requests.length := by
      rw [ThreadArgs.requests, ← List.map_take, List.take_range, min_eq_left hlength]
      rfl

/-- What the handlers have received lies within what was asked. -/
lemma Session.Sound.allReceived_plan (h : Session.Sound a w m tr) :
    m.allReceived = m.received w.thread.leg ∧
      ∃ k, m.received w.thread.leg <+: a.requests k ∧
        Progress a w.thread.isOpen w.current.failed k tr w.thread.pc := by
  obtain ⟨k, hk, hprogress⟩ := h.progress
  have hother : ∀ leg, leg ≠ w.thread.leg → m.received leg = [] := fun leg hleg =>
    (List.append_eq_nil_iff.1 (h.elsewhere leg hleg)).1
  refine ⟨?_, k, hk ▸ List.prefix_append _ _, hprogress⟩
  cases hleg : w.thread.leg with
  | first => rw [allReceived, hother .redirected (by rw [hleg]; simp), List.append_nil]
  | redirected => rw [allReceived, hother .first (by rw [hleg]; simp), List.nil_append]

lemma Progress.bounds {isOpen failed : Bool} {k : ℕ} {pc : ThreadPc}
    (h : Progress a isOpen failed k tr pc) :
    k ≤ (repliesIn tr).length + 1 ∧ k ≤ a.numRequests.toNat := by
  cases h with
  | greets _ hk hn => omega
  | loop horders hk hall hn hi => omega
  | idle hnone hk hn => omega
  | expects hpc hk hall hn hi => omega
  | returned hk hk' hended => exact ⟨hk, hk'⟩

/-- Behind what is no reply, the replies to the first of the requests. -/
def RepliesInOrder (sent : List ServerMessage) (received : List CustomerRequest) : Prop :=
  ∃ greetings replies answered, sent = greetings ++ replies ∧
    (∀ g ∈ greetings, ¬ g.type.IsReply) ∧ answered <+: received ∧
    List.Forall₂ IsReplyTo answered replies

lemma Serves.repliesInOrder {pc : HandlerPc} {sent : List ServerMessage}
    {received : List CustomerRequest} (h : Serves pc sent received) :
    RepliesInOrder sent received := by
  cases h with
  | greets _ hsent => exact ⟨sent, [], [], by simp, hsent, List.nil_prefix, .nil⟩
  | receives hg hr => exact ⟨_, _, _, rfl, hg, List.prefix_rfl, hr⟩
  | serves hg hr => exact ⟨_, _, _, rfl, hg, List.prefix_append _ _, hr⟩
  | returned hg hr => exact ⟨_, _, _, rfl, hg, List.prefix_append _ _, hr⟩

/-- What the handlers have received is the beginning of the plan. -/
lemma allReceived_of_run {ok : Handshake × Session → HandshakeLabel → Prop}
    (hrun : (session net a).Run ok (w, m) tr) :
    ∃ k, m.allReceived = a.requests k ∧ k ≤ a.numRequests.toNat ∧
      k ≤ (repliesIn tr).length + 1 := by
  obtain ⟨hall, k, hprefix, hprogress⟩ := (Session.sound_of_run hrun).allReceived_plan
  have hlength : (m.received w.thread.leg).length ≤ k := by
    simpa [ThreadArgs.requests] using hprefix.length_le
  obtain ⟨hreplies, hnum⟩ := hprogress.bounds
  refine ⟨(m.received w.thread.leg).length, ?_, by omega, by omega⟩
  rw [hall]
  exact prefix_requests hprefix

/-- **The requests arrive in order.**  What the handlers receive of a thread are the first requests
of its plan, each once, and at most one more than it has read replies; they send the replies to
them in that order. -/
theorem requests_in_order {ok : Handshake × Session → HandshakeLabel → Prop}
    (hrun : (session net a).Run ok (w, m) tr) :
    ∃ k, m.allReceived = a.requests k ∧ k ≤ a.numRequests.toNat ∧
      k ≤ (repliesIn tr).length + 1 ∧
      ∀ leg, RepliesInOrder (m.sent leg) (m.received leg) := by
  obtain ⟨k, hk, hnum, hreplies⟩ := allReceived_of_run hrun
  exact ⟨k, hk, hnum, hreplies, fun leg =>
    ((Session.sound_of_run hrun).balanced leg).serves.repliesInOrder⟩

/-- The block is the message. -/
def Decoded.Is (d : Decoded) (message : ServerMessage) : Prop :=
  message.type = d.type ∧ d.block = octets ServerMessage.marshal message

lemma exists_messages {ds : List Decoded} (h : ∀ d ∈ ds, d.Agrees) :
    ∃ messages, List.Forall₂ Decoded.Is ds messages := by
  induction ds with
  | nil => exact ⟨[], .nil⟩
  | cons d ds ih =>
      obtain ⟨⟨message, hmessage⟩, hrest⟩ := List.forall_mem_cons.1 h
      obtain ⟨messages, hmessages⟩ := ih hrest
      exact ⟨message :: messages, .cons hmessage hmessages⟩

lemma flatMap_block {ds : List Decoded} {messages : List ServerMessage}
    (h : List.Forall₂ Decoded.Is ds messages) :
    ds.flatMap Decoded.block = messages.flatMap (octets ServerMessage.marshal) := by
  induction h with
  | nil => rfl
  | cons hd _ ih => rw [List.flatMap_cons, List.flatMap_cons, hd.2, ih]

lemma IsReplyTo.isReply {request : CustomerRequest} {message : ServerMessage}
    (h : IsReplyTo request message) : message.type.IsReply := by
  obtain ⟨-, md, engineerId, adminId, rfl⟩ := h
  unfold Connection.replyTo
  split <;> trivial

lemma isReply_of_mem {answered : List CustomerRequest} {replies : List ServerMessage}
    (h : List.Forall₂ IsReplyTo answered replies) : ∀ r ∈ replies, r.type.IsReply := by
  induction h with
  | nil => simp
  | cons hreply _ ih => exact List.forall_mem_cons.2 ⟨hreply.isReply, ih⟩

lemma forall₂_join {α β γ : Type*} {R : α → γ → Prop} {S : β → γ → Prop} {xs : List α}
    {ys : List β} {zs : List γ} (hR : List.Forall₂ R xs zs) (hS : List.Forall₂ S ys zs) :
    List.Forall₂ (fun x y => ∃ z, R x z ∧ S y z) xs ys := by
  induction hR generalizing ys with
  | nil =>
      cases hS
      exact .nil
  | cons hxz _ ih =>
      cases hS with
      | cons hyz hS => exact .cons ⟨_, hxz, hyz⟩ (ih hS)

/-- The replies read on one connection. -/
lemma Balanced.replies {conn : Connection} {received : List CustomerRequest}
    {sent : List ServerMessage} {read : List Decoded} (h : Balanced conn received sent read)
    (hagrees : ∀ d ∈ read, d.Agrees) : ∃ answered, answered <+: received ∧
      List.Forall₂ (fun r d => ∃ message, IsReplyTo r message ∧ d.Is message) answered
        (repliesIn read) := by
  obtain ⟨messages, hmessages⟩ := exists_messages hagrees
  have hprefix : messages <+: sent := by
    refine prefix_of_octets (fun message => ?_)
      (List.IsPrefix.trans ?_ h.flight.upTo)
    · rw [ServerMessage.marshal_length]
      exact MessageType.size_pos _
    · rw [← flatMap_block hmessages]
      exact List.prefix_append _ _
  obtain ⟨greetings, replies, answered, rfl, hgreetings, hanswered, hreplies⟩ :=
    h.serves.repliesInOrder
  have hread : List.Forall₂ Decoded.Is (repliesIn read)
      (messages.filter fun message => message.type.IsReply) :=
    List.rel_filter (fun d message hd => by simp [hd.1]) hmessages
  have hfilter : messages.filter (fun message => message.type.IsReply) <+: replies := by
    have hnone : greetings.filter (fun message => message.type.IsReply) = [] :=
      List.filter_eq_nil_iff.2 fun g hg => by simpa using hgreetings g hg
    have hall : replies.filter (fun message => message.type.IsReply) = replies :=
      List.filter_eq_self.2 fun r hr => by simpa using isReply_of_mem hreplies r hr
    have hboth := hprefix.filter fun message => message.type.IsReply
    rwa [List.filter_append, hnone, hall, List.nil_append] at hboth
  rw [List.prefix_iff_eq_take.1 hfilter] at hread
  exact ⟨answered.take _, (List.take_prefix _ _).trans hanswered,
    forall₂_join (List.forall₂_take _ hreplies) hread⟩

/-- **What is decoded was sent so**, with the record beside it. -/
lemma agrees_of_run
    (hrun : (session net a).Run (fun p l => a.LeaderInfoFits p.1 l) (w, m) tr) :
    ∀ d ∈ tr, d.Agrees := by
  have hinvariant : w.Coherent a ∧ ∀ d ∈ tr, d.Agrees := by
    refine TransitionSystem.Run.invariant
      (I := fun w tr => w.Coherent a ∧ ∀ d ∈ tr, d.Agrees) ?_ ?_ hrun.forget_of
    · rintro _ ⟨metadata, rfl⟩
      exact ⟨.of_closed rfl, by simp⟩
    · intro w tr l w' es _ ⟨hcoherent, hagrees⟩ hok hst
      obtain ⟨hcoherent', hagrees'⟩ := hcoherent.step hok hst
      exact ⟨hcoherent', fun d hd => (List.mem_append.1 hd).elim (hagrees d) (hagrees' d)⟩
  exact hinvariant.2

/-- The replies of the whole run are those on the connection the thread has. -/
lemma replies_of_run
    (hrun : (session net a).Run (fun p l => a.LeaderInfoFits p.1 l) (w, m) tr) :
    (repliesIn tr).length ≤ a.numRequests.toNat ∧
      List.Forall₂ (fun r d => ∃ message, IsReplyTo r message ∧ d.Is message)
        (a.requests (repliesIn tr).length) (repliesIn tr) := by
  have h := Session.sound_of_run hrun
  have hagrees := agrees_of_run hrun
  have hread : ∀ leg, ∀ d ∈ m.read leg, d.Agrees := by
    intro leg d hd
    refine hagrees d ?_
    rw [h.trace]
    cases leg with
    | first => exact List.mem_append_left _ hd
    | redirected => exact List.mem_append_right _ hd
  have hother : ∀ leg, leg ≠ w.thread.leg → repliesIn (m.read leg) = [] := by
    intro leg hleg
    obtain ⟨answered, hanswered, hreplies⟩ := (h.balanced leg).replies (hread leg)
    rw [(List.append_eq_nil_iff.1 (h.elsewhere leg hleg)).1, List.prefix_nil] at hanswered
    rw [hanswered, List.forall₂_nil_left_iff] at hreplies
    exact hreplies
  have hsame : repliesIn tr = repliesIn (m.read w.thread.leg) := by
    rw [h.trace, repliesIn_append]
    cases hleg : w.thread.leg with
    | first => rw [hother .redirected (by rw [hleg]; simp), List.append_nil]
    | redirected => rw [hother .first (by rw [hleg]; simp), List.nil_append]
  obtain ⟨-, k, hreceived, hprogress⟩ := h.allReceived_plan
  obtain ⟨answered, hanswered, hreplies⟩ := (h.balanced w.thread.leg).replies (hread _)
  have hplan : answered = a.requests answered.length :=
    prefix_requests (hanswered.trans hreceived)
  have hlength : answered.length ≤ k := by
    simpa [ThreadArgs.requests] using (hanswered.trans hreceived).length_le
  rw [hsame, ← hreplies.length_eq, ← hplan]
  exact ⟨hlength.trans hprogress.bounds.2, hreplies⟩

/-- **The replies arrive in order**: the `j`-th one the thread reads is the reply to its `j`-th
request. -/
theorem replies_in_order
    (hrun : (session net a).Run (fun p l => a.LeaderInfoFits p.1 l) (w, m) tr) :
    List.Forall₂ (fun r d => ∃ message, IsReplyTo r message ∧ d.Is message)
      (a.requests (repliesIn tr).length) (repliesIn tr) :=
  (replies_of_run hrun).2

lemma LaptopInfo.customerId_unmarshal {laptop : LaptopInfo} (h : IsInt laptop.customerId) :
    (LaptopInfo.unmarshal laptop.marshal).customerId = laptop.customerId := by
  simp only [LaptopInfo.unmarshal, LaptopInfo.marshal, intAt, Nat.mul_zero, List.drop_zero,
    List.append_assoc]
  exact ofNetwork_toNetwork h _

lemma CustomerRecord.customerId_unmarshal {record : CustomerRecord} (h : IsInt record.customerId) :
    (CustomerRecord.unmarshal record.marshal).customerId = record.customerId := by
  simp only [CustomerRecord.unmarshal, CustomerRecord.marshal, intAt, Nat.mul_zero, List.drop_zero]
  exact ofNetwork_toNetwork h _

/-- No reply to a request of the plan ends the thread. -/
lemma not_last (hid : IsInt a.customerId) (hnum : IsInt a.numRequests) {i : ℕ}
    (hi : i < a.numRequests.toNat) {d : Decoded} {message : ServerMessage}
    (hreply : IsReplyTo (a.request i) message) (hd : d.Is message) : ¬ d.Last := by
  obtain ⟨hvalid, md, engineerId, adminId, rfl⟩ := hreply
  obtain ⟨htype, hblock⟩ := hd
  have hvalue : d.value =
      (Connection.replyTo md (a.request i) engineerId adminId).marshal := by
    rw [Decoded.value, hblock, octets_value]
  rintro (⟨hlaptop, hlast⟩ | ⟨hrecord, hlast⟩)
  · rw [hvalue] at hlast
    by_cases hupdate : a.requestType = updateRequest
    · have hrequest : a.request i = ⟨a.customerId, i, updateRequest⟩ := if_pos hupdate
      rw [hrequest] at hlast hvalid
      exact hvalid ((LaptopInfo.customerId_unmarshal hid).symm.trans hlast)
    · have hrequest : a.request i = ⟨i, -1, readRequest⟩ := if_neg hupdate
      rw [hlaptop, hrequest] at htype
      cases htype
  · rw [hvalue] at hlast
    by_cases hupdate : a.requestType = updateRequest
    · have hrequest : a.request i = ⟨a.customerId, i, updateRequest⟩ := if_pos hupdate
      rw [hrecord, hrequest] at htype
      cases htype
    · have hrequest : a.request i = ⟨i, -1, readRequest⟩ := if_neg hupdate
      have hint : IsInt (i : ℤ) := by
        unfold IsInt at hnum ⊢
        omega
      rw [hrequest] at hlast
      have hsame : (CustomerRecord.unmarshal
          (CustomerRecord.mk i (md.getValue i)).marshal).customerId = i :=
        CustomerRecord.customerId_unmarshal hint
      have hminus : (i : ℤ) = -2 := hsame.symm.trans hlast
      omega

/-- **No order is given up in silence.**  A thread that returns with its connection open has read
the replies to all its requests, or was told by its server that there is no leader to send updates
to, or has nothing to send. -/
theorem thread_completes
    (hrun : (session net a).Run (fun p l => a.LeaderInfoFits p.1 l) (w, m) tr)
    (hid : IsInt a.customerId) (hnum : IsInt a.numRequests) (hpc : w.thread.pc = .returned)
    (hopen : w.thread.isOpen = true) :
    (repliesIn tr).length = a.numRequests.toNat ∨
      m.allReceived = [] ∧ (a.requestType = updateRequest ∧ ToldLeaderless tr ∨
        ∀ i isLeader, a.requestOf i isLeader = none) := by
  obtain ⟨hall, k, hreceived, hprogress⟩ := (Session.sound_of_run hrun).allReceived_plan
  have hended : Ended a k tr := by
    change Progress a w.thread.isOpen w.current.failed k tr w.thread.pc at hprogress
    rw [hpc] at hprogress
    cases hprogress with
    | greets hgreets => exact hgreets.elim
    | expects hexpects => exact hexpects.elim
    | returned _ _ hended => exact hended hopen
  have hnothing : k = 0 → m.allReceived = [] := by
    rintro rfl
    rw [hall]
    exact List.prefix_nil.1 hreceived
  cases hended with
  | answered h => exact Or.inl h
  | leaderless htype htold hk => exact Or.inr ⟨hnothing hk, Or.inl ⟨htype, htold⟩⟩
  | idle hnone hk => exact Or.inr ⟨hnothing hk, Or.inr hnone⟩
  | @last d hd hlast =>
      obtain ⟨hlength, hreplies⟩ := replies_of_run hrun
      obtain ⟨j, hj, rfl⟩ := List.mem_iff_getElem.1 hd
      have hj' : j < (a.requests (repliesIn tr).length).length := by
        rw [hreplies.length_eq]
        exact hj
      obtain ⟨message, hreply, his⟩ := hreplies.get hj' hj
      have hrequest : (a.requests (repliesIn tr).length).get ⟨j, hj'⟩ = a.request j := by
        simp [ThreadArgs.requests]
      rw [hrequest] at hreply
      exact absurd hlast (not_last hid hnum (by omega) hreply his)

end Runs

/-! ## Two orders that are redirected -/

def twoOrders : ThreadArgs := ⟨"127.0.0.1", 5001, 7, 2, updateRequest⟩

/-- One request and its reply. -/
def ordered (leg : Leg) : List HandshakeLabel :=
  [.thread true, .receiveRequest leg, .serve leg 4 0, .thread true]

lemma run_twoOrders : ∃ p tr,
    (session localNetwork twoOrders).Run (fun p l => twoOrders.LeaderInfoFits p.1 l) p tr ∧
      p.1.thread.pc = .returned ∧ p.1.thread.isOpen = true ∧ (repliesIn tr).length = 2 :=
  TransitionSystem.run_of_exec (session localNetwork twoOrders)
    (fun p l => twoOrders.LeaderInfoFits p.1 l) (startThread twoOrders (localServer 0), {})
    ⟨⟨_, rfl⟩, rfl⟩
    (greet .first ++ announce .first 0 ++ [.thread true, .thread true] ++ greet .redirected ++
      [.testLeader .redirected, .thread true] ++ ordered .redirected ++ ordered .redirected ++
      [.thread true])
    (P := fun p tr => p.1.thread.pc = .returned ∧ p.1.thread.isOpen = true ∧
      (repliesIn tr).length = 2)
    (by decide +kernel)

theorem requests_in_order_two : ∃ w m tr,
    (session localNetwork twoOrders).Run (fun p l => twoOrders.LeaderInfoFits p.1 l) (w, m) tr ∧
    (repliesIn tr).length = 2 ∧ ∃ k, m.allReceived = twoOrders.requests k ∧
      k ≤ twoOrders.numRequests.toNat ∧ k ≤ (repliesIn tr).length + 1 ∧
      ∀ leg, RepliesInOrder (m.sent leg) (m.received leg) := by
  obtain ⟨⟨w, m⟩, tr, hrun, -, -, hlength⟩ := run_twoOrders
  exact ⟨w, m, tr, hrun, hlength, requests_in_order hrun⟩

theorem replies_in_order_two : ∃ p tr,
    (session localNetwork twoOrders).Run (fun p l => twoOrders.LeaderInfoFits p.1 l) p tr ∧
    (repliesIn tr).length = 2 ∧
    List.Forall₂ (fun r d => ∃ message, IsReplyTo r message ∧ d.Is message)
      (twoOrders.requests (repliesIn tr).length) (repliesIn tr) := by
  obtain ⟨⟨w, m⟩, tr, hrun, -, -, hlength⟩ := run_twoOrders
  exact ⟨(w, m), tr, hrun, hlength, replies_in_order hrun⟩

theorem thread_completes_two : ∃ w m tr,
    (session localNetwork twoOrders).Run (fun p l => twoOrders.LeaderInfoFits p.1 l) (w, m) tr ∧
    w.thread.pc = .returned ∧ w.thread.isOpen = true ∧ (repliesIn tr).length = 2 ∧
    ((repliesIn tr).length = twoOrders.numRequests.toNat ∨
      m.allReceived = [] ∧ (twoOrders.requestType = updateRequest ∧ ToldLeaderless tr ∨
        ∀ i isLeader, twoOrders.requestOf i isLeader = none)) := by
  obtain ⟨⟨w, m⟩, tr, hrun, hpc, hopen, hlength⟩ := run_twoOrders
  exact ⟨w, m, tr, hrun, hpc, hopen, hlength,
    thread_completes hrun (by decide) (by decide) hpc hopen⟩

/-! ## One client program -/

section Program

/-- The customers of a program have different ids. -/
lemma clientMain_pairwise {argv : List String} {threads : List ThreadArgs}
    (h : clientMain argv = some threads) :
    threads.Pairwise fun a b => a.customerId ≠ b.customerId := by
  unfold clientMain at h
  split at h
  · obtain rfl := Option.some.inj h
    exact .nil
  · simp only [Option.bind_eq_bind, Option.bind_eq_some_iff, Option.some.injEq] at h
    obtain ⟨ip, -, _, -, port, -, _, -, numCustomers, -, _, -, numOrders, -, _, -, requestType, -,
      rfl⟩ := h
    rw [List.pairwise_map]
    exact List.nodup_range.imp fun hne heq => hne (Int.ofNat_inj.1 heq)

/-- **No update is received twice**, from any of the customers of a program. -/
theorem updates_received_once {net : Network} {argv : List String} {threads : List ThreadArgs}
    {records : ThreadArgs → Session} {ok : Handshake × Session → HandshakeLabel → Prop}
    (hmain : clientMain argv = some threads)
    (hupdate : ∀ a ∈ threads, a.requestType = updateRequest)
    (hrun : ∀ a ∈ threads, ∃ w tr, (session net a).Run ok (w, records a) tr) :
    (threads.flatMap fun a => (records a).allReceived).Nodup := by
  have hplan : ∀ a ∈ threads, ∃ k, (records a).allReceived =
      (List.range k).map fun (i : ℕ) => ⟨a.customerId, i, updateRequest⟩ := by
    intro a ha
    obtain ⟨w, tr, hrun⟩ := hrun a ha
    obtain ⟨k, hk, -⟩ := allReceived_of_run hrun
    exact ⟨k, by simp only [hk, ThreadArgs.requests, ThreadArgs.request, if_pos (hupdate a ha)]⟩
  rw [List.nodup_flatMap]
  constructor
  · intro a ha
    obtain ⟨k, hk⟩ := hplan a ha
    rw [hk]
    refine List.nodup_range.map fun i j heq => ?_
    simpa using heq
  · refine (clientMain_pairwise hmain).imp_of_mem fun {a b} ha hb hne => ?_
    obtain ⟨k, hk⟩ := hplan a ha
    obtain ⟨k', hk'⟩ := hplan b hb
    change (records a).allReceived.Disjoint (records b).allReceived
    rw [hk, hk']
    intro r hr hr'
    obtain ⟨i, -, rfl⟩ := List.mem_map.1 hr
    obtain ⟨j, -, heq⟩ := List.mem_map.1 hr'
    simp only [CustomerRequest.mk.injEq] at heq
    exact hne heq.1.symm

/-- Two customers who order once. -/
def twoCustomers : List String := ["./client", "127.0.0.1", "5000", "2", "1", "1"]

/-- One of them. -/
def oneOfTwo (customerId : ℤ) : ThreadArgs := ⟨"127.0.0.1", 5000, customerId, 1, updateRequest⟩

lemma run_oneOfTwo {a : ThreadArgs} (h : a = oneOfTwo 0 ∨ a = oneOfTwo 1) : ∃ p tr,
    (session localNetwork a).Run TransitionSystem.anyStep p tr ∧ p.2.allReceived.length = 1 := by
  rcases h with rfl | rfl
  · exact TransitionSystem.run_of_exec (session localNetwork (oneOfTwo 0))
      TransitionSystem.anyStep (startThread (oneOfTwo 0) (localServer 0), {}) ⟨⟨_, rfl⟩, rfl⟩
      (greet .first ++ [.testLeader .first, .thread true] ++ ordered .first)
      (P := fun (p : Handshake × Session) (_ : List Decoded) => p.2.allReceived.length = 1)
      (by decide +kernel)
  · exact TransitionSystem.run_of_exec (session localNetwork (oneOfTwo 1))
      TransitionSystem.anyStep (startThread (oneOfTwo 1) (localServer 0), {}) ⟨⟨_, rfl⟩, rfl⟩
      (greet .first ++ [.testLeader .first, .thread true] ++ ordered .first)
      (P := fun (p : Handshake × Session) (_ : List Decoded) => p.2.allReceived.length = 1)
      (by decide +kernel)

theorem updates_received_once_two : ∃ records : ThreadArgs → Session,
    (∀ a ∈ [oneOfTwo 0, oneOfTwo 1], ∃ w tr,
      (session localNetwork a).Run TransitionSystem.anyStep (w, records a) tr) ∧
    (records (oneOfTwo 0)).allReceived.length = 1 ∧
    (records (oneOfTwo 1)).allReceived.length = 1 ∧
    ([oneOfTwo 0, oneOfTwo 1].flatMap fun a => (records a).allReceived).Nodup := by
  obtain ⟨⟨w, m⟩, tr, hrun, hlength⟩ := run_oneOfTwo (a := oneOfTwo 0) (Or.inl rfl)
  obtain ⟨⟨w', m'⟩, tr', hrun', hlength'⟩ := run_oneOfTwo (a := oneOfTwo 1) (Or.inr rfl)
  have hdiffer : oneOfTwo 1 ≠ oneOfTwo 0 := by decide
  have hmain : clientMain twoCustomers = some [oneOfTwo 0, oneOfTwo 1] := by decide
  have hruns : ∀ a ∈ [oneOfTwo 0, oneOfTwo 1], ∃ w₁ tr₁,
      (session localNetwork a).Run TransitionSystem.anyStep
        (w₁, Function.update (fun _ => m') (oneOfTwo 0) m a) tr₁ := by
    intro a ha
    rcases List.mem_pair.1 ha with rfl | rfl
    · rw [Function.update_self]
      exact ⟨w, tr, hrun⟩
    · rw [Function.update_of_ne hdiffer]
      exact ⟨w', tr', hrun'⟩
  refine ⟨Function.update (fun _ => m') (oneOfTwo 0) m, hruns, ?_, ?_, ?_⟩
  · rw [Function.update_self]
    exact hlength
  · rw [Function.update_of_ne hdiffer]
    exact hlength'
  · exact updates_received_once hmain (by decide) hruns

end Program

end LaptopRaft
