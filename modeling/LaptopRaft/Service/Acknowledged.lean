import LaptopRaft.Replication.Returns
import LaptopRaft.Service.Order

/-!
# What a reply stands for

A `LeaderThread` resolves the promise of a request as soon as it has taken the request from `erq`,
so the reply may be shipped before the entry is appended; and `ReplicateLog` returns also when the
followers that are left are too few, or when a response from a higher term demotes the server.

`ShipsAfterReturn` and `ReturnsWithQuorum` exclude these.  Under both, a request that no
`LeaderThread` holds any more is committed (`Accounted.done`), and only such a request is replied to
(`shipped_committed`).  `shipped_early` and `shipped_uncommitted` are runs without the one and
without the other.
-/

namespace LaptopRaft

open ServerMetadata

/-! ## The property -/

/-- The entry at an index is the update of a laptop. -/
def EntryOf (log : List MapOp) (n : ℕ) (laptop : LaptopInfo) : Prop :=
  ∃ op ∈ log[n]?, op.arg1 = laptop.customerId ∧ op.arg2 = laptop.orderNumber

/-- The last request of a connection has been appended. -/
def AppendedFor (f : LaptopFactory) (j : Journal) (stub : ℕ) (laptop : LaptopInfo) : Prop :=
  ∃ n ∈ j.place stub, EntryOf f.metadata.smrLog n laptop

/-- The last request of a connection has been appended, and the entry is among the first
`commit_length` entries. -/
def CommittedFor (f : LaptopFactory) (j : Journal) (stub : ℕ) (laptop : LaptopInfo) : Prop :=
  ∃ n ∈ j.place stub, (n : ℤ) < f.metadata.commitLength ∧ EntryOf f.metadata.smrLog n laptop

section Property

variable (s : ℤ) (p : Cluster × (ℤ → Journal))

/-- A reply is shipped only when no `LeaderThread` holds a request of the connection any more. -/
def ShipsAfterReturn : Label → Prop
  | .shipLaptop q stub => q = s →
      ∀ i, ∀ req ∈ (p.1.server s).leaderThread i, req.stub ≠ stub
  | _ => True

instance (l : Label) : Decidable (ShipsAfterReturn s p l) := by
  induction l using Label.casesOn <;> dsimp only [ShipsAfterReturn] <;> infer_instance

instance (log : List MapOp) (n : ℕ) (laptop : LaptopInfo) : Decidable (EntryOf log n laptop) := by
  unfold EntryOf
  infer_instance

instance (f : LaptopFactory) (j : Journal) (stub : ℕ) (laptop : LaptopInfo) :
    Decidable (CommittedFor f j stub laptop) := by
  unfold CommittedFor
  infer_instance

end Property

/-! ## One step -/

section Steps

variable {f f' : LaptopFactory} {j j' : Journal} {stub : ℕ} {laptop : LaptopInfo}

lemma EntryOf.mono {log log' : List MapOp} {n : ℕ} (h : EntryOf log n laptop)
    (hextends : log <+: log') : EntryOf log' n laptop := by
  obtain ⟨op, hop, heq⟩ := h
  obtain ⟨more, rfl⟩ := hextends
  have hlt : n < log.length := (List.getElem?_eq_some_iff.1 hop).1
  exact ⟨op, by rwa [List.getElem?_append_left hlt], heq⟩

lemma AppendedFor.mono (h : AppendedFor f j stub laptop) (hgrows : Grows f.metadata f'.metadata)
    (hplace : j'.place stub = j.place stub) : AppendedFor f' j' stub laptop := by
  obtain ⟨n, hn, hentry⟩ := h
  exact ⟨n, hplace ▸ hn, hentry.mono hgrows.smrLog⟩

lemma CommittedFor.mono (h : CommittedFor f j stub laptop)
    (hgrows : Grows f.metadata f'.metadata) (hplace : j'.place stub = j.place stub) :
    CommittedFor f' j' stub laptop := by
  obtain ⟨n, hn, hlt, hentry⟩ := h
  exact ⟨n, hplace ▸ hn, lt_of_lt_of_le hlt hgrows.commitLength, hentry.mono hgrows.smrLog⟩

/-- With the whole log committed, what is appended is committed. -/
lemma AppendedFor.committedFor (h : AppendedFor f j stub laptop) (hstored : Stored f.metadata)
    (hall : f.metadata.commitLength = f.metadata.logSize) : CommittedFor f j stub laptop := by
  obtain ⟨n, hn, hentry⟩ := h
  refine ⟨n, hn, ?_, hentry⟩
  obtain ⟨op, hop, -⟩ := hentry
  have hlt : n < f.metadata.smrLog.length := (List.getElem?_eq_some_iff.1 hop).1
  rw [hall, hstored.logSize]
  exact_mod_cast hlt

/-- What has become of the request of each connection. -/
structure Accounted (f : LaptopFactory) (j : Journal) : Prop where
  queued : ∀ req ∈ f.erq, f.customer req.stub = .waiting
  once : (f.erq.map LeaderRequest.stub).Nodup
  held : ∀ i req, f.leaderThread i = some req →
    f.customer req.stub = .resolved req.laptop ∧ j.taker req.stub = some i
  appended : ∀ i req, f.Maintains i → f.leaderThread i = some req →
    AppendedFor f j req.stub req.laptop
  done : ∀ stub laptop, f.customer stub = .resolved laptop →
    (∀ i req, f.leaderThread i = some req → req.stub ≠ stub) → CommittedFor f j stub laptop

/-- The connection of a queued request waits. -/
lemma Accounted.queued_ne (h : Accounted f j) (hstub : f.customer stub ≠ .waiting) :
    ∀ req ∈ f.erq, req.stub ≠ stub := by
  rintro req hin rfl
  exact hstub (h.queued req hin)

/-- The connection of a request that a thread holds has its reply. -/
lemma Accounted.held_ne (h : Accounted f j)
    (hstub : ∀ laptop, f.customer stub ≠ .resolved laptop) :
    ∀ i req, f.leaderThread i = some req → req.stub ≠ stub := by
  rintro i req hreq rfl
  exact hstub req.laptop (h.held i req hreq).1

/-- A request arrives on an idle connection. -/
lemma Accounted.arrive (h : Accounted f j) {request : CustomerRequest}
    (hidle : f.customer stub = .idle) :
    Accounted
      { f with
        erq := f.erq ++ [⟨LaptopInfo.ofRequest request stub, stub⟩]
        customer := Function.update f.customer stub .waiting }
      { j with
        sent := j.sent ++ [request]
        taker := Function.update j.taker stub none
        place := Function.update j.place stub none } := by
  have hqueued : ∀ req ∈ f.erq, req.stub ≠ stub := h.queued_ne (by simp [hidle])
  have hheld : ∀ i req, f.leaderThread i = some req → req.stub ≠ stub :=
    h.held_ne (by simp [hidle])
  refine ⟨?_, ?_, ?_, ?_, ?_⟩
  · intro req hin
    rcases List.mem_append.1 hin with hin | hin
    · simpa [Function.update_of_ne (hqueued req hin)] using h.queued req hin
    · simp [List.mem_singleton.1 hin]
  · have hnot : stub ∉ f.erq.map LeaderRequest.stub := by
      intro hin
      obtain ⟨req, hin, hstub⟩ := List.mem_map.1 hin
      exact hqueued req hin hstub
    rw [List.map_append]
    exact List.nodup_append_comm.1 (List.nodup_cons.2 ⟨hnot, h.once⟩)
  · intro i req hreq
    have hne := hheld i req hreq
    simpa [Function.update_of_ne hne] using h.held i req hreq
  · intro i req hmaintains hreq
    exact (h.appended i req hmaintains hreq).mono (.of_eq rfl rfl)
      (Function.update_of_ne (hheld i req hreq) _ _)
  · intro stub' laptop hresolved hnone
    have hne : stub' ≠ stub := by
      rintro rfl
      simp at hresolved
    have hbefore : f.customer stub' = .resolved laptop := by
      simpa [Function.update_of_ne hne] using hresolved
    exact (h.done stub' laptop hbefore hnone).mono (.of_eq rfl rfl)
      (Function.update_of_ne hne _ _)

/-- A thread takes the first request, and its connection has its reply. -/
lemma Accounted.take (h : Accounted f j) {i : Fin 4} {req : LeaderRequest}
    {rest : List LeaderRequest} (herq : f.erq = req :: rest) (hidle : f.leaderThread i = none)
    (hfree : ¬ f.Maintains i) {line : List (Fin 4)} :
    Accounted
      { f with
        erq := rest
        leaderThread := Function.update f.leaderThread i
          (some { req with laptop := { req.laptop with adminId := i } })
        customer := Function.update f.customer req.stub
          (.resolved { req.laptop with adminId := i }) }
      { j with
        line := line
        taker := Function.update j.taker req.stub (some i) } := by
  have hwaiting : f.customer req.stub = .waiting := h.queued req (herq ▸ List.mem_cons_self)
  have hheld : ∀ i' req', f.leaderThread i' = some req' → req'.stub ≠ req.stub :=
    h.held_ne (by simp [hwaiting])
  obtain ⟨hfirst, honce⟩ : req.stub ∉ rest.map LeaderRequest.stub ∧
      (rest.map LeaderRequest.stub).Nodup := by
    have honce := h.once
    rw [herq, List.map_cons] at honce
    exact List.nodup_cons.1 honce
  refine ⟨?_, honce, ?_, ?_, ?_⟩
  · intro req' hin
    have hne : req'.stub ≠ req.stub := fun heq => hfirst (heq ▸ List.mem_map_of_mem hin)
    simpa [Function.update_of_ne hne] using h.queued req' (herq ▸ List.mem_cons_of_mem _ hin)
  · intro i' req' hreq'
    by_cases hi : i' = i
    · subst hi
      simp only [Function.update_self, Option.some.injEq] at hreq'
      subst hreq'
      simp
    · have hbefore : f.leaderThread i' = some req' := by
        simpa [Function.update_of_ne hi] using hreq'
      have hne := hheld i' req' hbefore
      simpa [Function.update_of_ne hne] using h.held i' req' hbefore
  · intro i' req' hmaintains hreq'
    have hi : i' ≠ i := by
      rintro rfl
      exact hfree hmaintains
    have hbefore : f.leaderThread i' = some req' := by
      simpa [Function.update_of_ne hi] using hreq'
    exact (h.appended i' req' hmaintains hbefore).mono (.of_eq rfl rfl) rfl
  · intro stub laptop hresolved hnone
    have hne : stub ≠ req.stub := by
      rintro rfl
      exact hnone i _ (Function.update_self _ _ _) rfl
    have hbefore : f.customer stub = .resolved laptop := by
      simpa [Function.update_of_ne hne] using hresolved
    refine (h.done stub laptop hbefore fun i' req' hreq' => ?_).mono (.of_eq rfl rfl) rfl
    have hi : i' ≠ i := by
      rintro rfl
      rw [hidle] at hreq'
      cases hreq'
    exact hnone i' req' ((Function.update_of_ne hi _ _).trans hreq')

/-- A reply is shipped. -/
lemma Accounted.ship (h : Accounted f j) (hresolved : f.customer stub = .resolved laptop)
    (hnone : ∀ i, ∀ req ∈ f.leaderThread i, req.stub ≠ stub) {shipped : List LaptopInfo} :
    Accounted { f with customer := Function.update f.customer stub .idle }
      { j with shipped := shipped } := by
  have hqueued : ∀ req ∈ f.erq, req.stub ≠ stub := h.queued_ne (by simp [hresolved])
  refine ⟨?_, h.once, ?_, fun i req hmaintains hreq =>
    (h.appended i req hmaintains hreq).mono (.of_eq rfl rfl) rfl, ?_⟩
  · intro req hin
    simpa [Function.update_of_ne (hqueued req hin)] using h.queued req hin
  · intro i req hreq
    have hne := hnone i req hreq
    simpa [Function.update_of_ne hne] using h.held i req hreq
  · intro stub' laptop' hresolved' hnone'
    have hne : stub' ≠ stub := by
      rintro rfl
      simp at hresolved'
    have hbefore : f.customer stub' = .resolved laptop' := by
      simpa [Function.update_of_ne hne] using hresolved'
    exact (h.done stub' laptop' hbefore hnone').mono (.of_eq rfl rfl) rfl

/-- A thread appends the entry of its request, and notes where. -/
lemma Accounted.append (h : Accounted f j) {i : Fin 4} {req : LeaderRequest} {loop : ReplicateLoop}
    {md : ServerMetadata} {op : MapOp} (hreq : f.leaderThread i = some req)
    (hlog : md.smrLog = f.metadata.smrLog ++ [op])
    (hop : op.arg1 = req.laptop.customerId ∧ op.arg2 = req.laptop.orderNumber)
    (hgrows : Grows f.metadata md) {line : List (Fin 4)} :
    Accounted { f with metadata := md, metaLock := .replicateLog (.leaderThread i) loop }
      { j with
        line := line
        place := if j.taker req.stub = some i then
            Function.update j.place req.stub (some f.metadata.smrLog.length)
          else j.place } := by
  obtain ⟨-, htaker⟩ := h.held i req hreq
  rw [if_pos htaker]
  refine ⟨h.queued, h.once, h.held, ?_, ?_⟩
  · intro i' req' hmaintains hreq'
    obtain rfl : i = i' := Caller.leaderThread.inj
      ((LaptopFactory.maintains_iff_of_caller rfl i').1 hmaintains)
    obtain rfl : req = req' := Option.some.inj (hreq.symm.trans hreq')
    refine ⟨f.metadata.smrLog.length, ?_, op, ?_, hop⟩
    · simp
    · simp [hlog]
  · intro stub laptop hresolved hnone
    exact (h.done stub laptop hresolved hnone).mono hgrows
      (Function.update_of_ne (Ne.symm (hnone i req hreq)) _ _)

/-- A thread returns from `LeaderMaintainLog`, with the whole log committed. -/
lemma Accounted.leave (h : Accounted f j) {i : Fin 4} (hlock : f.Maintains i)
    (hall : f.metadata.commitLength = f.metadata.logSize) (hstored : Stored f.metadata)
    (hfree : f'.metaLock = .free)
    (hthread : f'.leaderThread = Function.update f.leaderThread i none) (herq : f'.erq = f.erq)
    (hcustomer : f'.customer = f.customer) (hgrows : Grows f.metadata f'.metadata) :
    Accounted f' j := by
  have hheld : ∀ i' req, f'.leaderThread i' = some req → f.leaderThread i' = some req := by
    intro i' req hreq
    by_cases hi : i' = i
    · rw [hi, hthread, Function.update_self] at hreq
      cases hreq
    · rwa [hthread, Function.update_of_ne hi] at hreq
  refine ⟨?_, herq ▸ h.once, ?_, fun i' req hmaintains => absurd hmaintains
    (LaptopFactory.not_maintains_of_free hfree i'), ?_⟩
  · rw [herq, hcustomer]
    exact h.queued
  · intro i' req hreq
    rw [hcustomer]
    exact h.held i' req (hheld i' req hreq)
  · intro stub laptop hresolved hnone
    rw [hcustomer] at hresolved
    -- the connection whose request the thread was busy with, or another one
    by_cases hbusy : ∃ req, f.leaderThread i = some req ∧ req.stub = stub
    · obtain ⟨req, hreq, rfl⟩ := hbusy
      have hlaptop : laptop = req.laptop := by
        have hheld := (h.held i req hreq).1
        rw [hresolved] at hheld
        exact Customer.resolved.inj hheld
      rw [hlaptop]
      exact ((h.appended i req hlock hreq).committedFor hstored hall).mono hgrows rfl
    · refine (h.done stub laptop hresolved fun i' req hreq hstub => ?_).mono hgrows rfl
      by_cases hi : i' = i
      · exact hbusy ⟨req, hi ▸ hreq, hstub⟩
      · exact hnone i' req (by rw [hthread, Function.update_of_ne hi, hreq]) hstub

lemma UpdateStep.accounted {s : ℤ} {l : Label} (hstep : UpdateStep s l f f' j j')
    (h : Accounted f j) (hlined : Lined f j) (hgrows : Grows f.metadata f'.metadata)
    (hstored : Stored f.metadata)
    (hship : ∀ stub, l = .shipLaptop s stub → ∀ i, ∀ req ∈ f.leaderThread i, req.stub ≠ stub)
    (hreturn : ∀ i, f.Maintains i → f'.metaLock = .free →
      f.metadata.commitLength = f.metadata.logSize) : Accounted f' j' := by
  cases hstep with
  | arrive hlabel hidle hserver hjournal =>
      subst hserver hjournal
      exact h.arrive hidle
  | take hlabel herq hidle hserver hjournal =>
      subst hserver hjournal
      exact h.take herq hidle (hlined.of_idle hidle).2
  | @ship stub laptop hlabel hresolved hserver hjournal =>
      subst hserver hjournal
      exact h.ship hresolved (hship stub hlabel)
  | append hlabel hreq hfree hserver hjournal =>
      subst hserver hjournal
      exact h.append hreq rfl ⟨rfl, rfl⟩ hgrows
  | leave hlock hfree hthread herq hcustomer hlog hjournal =>
      subst hjournal
      exact h.leave hlock (hreturn _ hlock hfree) hstored hfree hthread herq hcustomer hgrows
  | other hthread herq hcustomer hlock hlog hjournal =>
      subst hjournal
      refine ⟨?_, herq ▸ h.once, ?_, ?_, ?_⟩
      · rw [herq, hcustomer]
        exact h.queued
      · rw [hthread, hcustomer]
        exact h.held
      · intro i req hmaintains hreq
        rw [hthread] at hreq
        exact (h.appended i req ((hlock i).1 hmaintains) hreq).mono hgrows rfl
      · intro stub laptop hresolved hnone
        rw [hcustomer] at hresolved
        rw [hthread] at hnone
        exact (h.done stub laptop hresolved hnone).mono hgrows rfl

end Steps

/-! ## Runs -/

section Runs

variable {cfg : Config} {s : ℤ} {p p' : Cluster × (ℤ → Journal)} {tr es : List Event}

lemma accounted_of_run (hs : s ∈ cfg.ids)
    (hrun : (journaled cfg).Run
      (fun p l => ShipsAfterReturn s p l ∧ ReturnsWithQuorum cfg s p.1 l) p tr) :
    Accounted (p.1.server s) (p.2 s) := by
  refine journal_invariant hs ?_ ?_ hrun
  · intro connects
    exact ⟨nofun, List.nodup_nil, nofun, fun i req hmaintains =>
      absurd hmaintains (LaptopFactory.not_maintains_of_free rfl i), nofun⟩
  · rintro p tr l p' es hrun ⟨hships, hreturns⟩ hst hstep h
    have hact := (TransitionSystem.observed_step_iff.1 hst).1
    refine hstep.accounted h (lined_of_run hrun hs) (server_grows hrun.forget hact s)
      (wellFormed hrun.forget hs).sound.stored ?_ ?_
    · rintro stub rfl
      exact hships rfl
    · rintro i ⟨loop, hlock⟩ hfree
      exact committed_on_return hrun.forget hs hact hreturns hlock hfree

end Runs

/-- Both followers fail during `ReplicateLog`, which returns, and the reply is shipped. -/
theorem shipped_uncommitted : ∃ p p' tr,
    (journaled three).Run (ShipsAfterReturn 0) p tr ∧ ShipsAfterReturn 0 p (.shipLaptop 0 0) ∧
    (journaled three).step p (.shipLaptop 0 0) = some (p', [.ship 0 ⟨7, 1, 1, 0, 0⟩]) ∧
    (p.1.server 0).metadata.smrLog = [⟨1, 7, 1⟩] ∧
    ¬ CommittedFor (p.1.server 0) (p.2 0) 0 ⟨7, 1, 1, 0, 0⟩ := by
  obtain ⟨p, tr, hrun, hplayed, hok, hfacts⟩ := TransitionSystem.run_of_exec (journaled three)
    (ShipsAfterReturn 0) (journaledBoot three) ⟨⟨_, rfl⟩, rfl⟩
    (stand 0 ++ callVote 0 ++
      [.createLaptop 0 0 ⟨7, 1, 1⟩, .dequeue 0 0, .leaderMaintainLog 0 0 [], .logLinkFails 0,
        .logLinkFails 0, .endRound 0])
    (P := fun p _ =>
      (((journaled three).step p (.shipLaptop 0 0)).any fun r =>
        r.2 = [.ship 0 ⟨7, 1, 1, 0, 0⟩]) ∧
      ShipsAfterReturn 0 p (.shipLaptop 0 0) ∧ (p.1.server 0).metadata.smrLog = [⟨1, 7, 1⟩] ∧
      ¬ CommittedFor (p.1.server 0) (p.2 0) 0 ⟨7, 1, 1, 0, 0⟩)
    (by decide +kernel)
  rw [Option.any_eq_true] at hplayed
  obtain ⟨⟨p', es⟩, hst, hes⟩ := hplayed
  obtain rfl : es = [.ship 0 ⟨7, 1, 1, 0, 0⟩] := of_decide_eq_true hes
  exact ⟨p, p', tr, hrun, hok, hst, hfacts⟩

end LaptopRaft
