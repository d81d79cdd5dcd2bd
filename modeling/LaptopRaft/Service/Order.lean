import LaptopRaft.Service.Journal

/-!
# The order of a customer's updates

The updates of a customer pass three places: `erq`, the `LeaderThread`s that wait for `meta_lock`,
and `smr_log`.  The first is a queue.  The second is not: whichever `LeaderThread` gets the lock
next appends next, and as the customer has the reply by then, two updates of the same customer
can wait there together.

`InTurn` is the condition that the lock is handed out in turn, for the requests of one customer.
`Forwarded` is what such a step of a leader does to the three places together; `order_kept` is
the order of the entries and the order number they leave in the record.  `order_swapped` is a
customer that waits for every reply, and whose two updates are swapped.
-/

namespace LaptopRaft

open ServerMetadata

/-! ## Updates -/

/-- A customer id and an order number. -/
abbrev Update := ℤ × ℤ

def CustomerRequest.update (request : CustomerRequest) : Update :=
  (request.customerId, request.orderNumber)

def LeaderRequest.update (req : LeaderRequest) : Update :=
  (req.laptop.customerId, req.laptop.orderNumber)

def MapOp.update (op : MapOp) : Update := (op.arg1, op.arg2)

/-- The order numbers of one customer. -/
def ordersOf (customerId : ℤ) (updates : List Update) : List ℤ :=
  (updates.filter (·.1 = customerId)).map Prod.snd

lemma ordersOf_append (customerId : ℤ) (us vs : List Update) :
    ordersOf customerId (us ++ vs) = ordersOf customerId us ++ ordersOf customerId vs := by
  rw [ordersOf, List.filter_append, List.map_append]
  rfl

lemma ordersOf_eq_nil {customerId : ℤ} {us : List Update} (h : ∀ u ∈ us, u.1 ≠ customerId) :
    ordersOf customerId us = [] := by
  rw [ordersOf, List.filter_eq_nil_iff.2 (fun u hu => by simpa using h u hu), List.map_nil]

lemma lastOrder_eq (log : List MapOp) (customerId : ℤ) :
    lastOrder log customerId = (ordersOf customerId (log.map MapOp.update)).getLast?.getD (-1) := by
  rw [lastOrder, ordersOf, List.filter_map, List.map_map, List.getLast?_map]
  rfl

/-- The updates that have arrived and are not in the log yet: those a `LeaderThread` waits with,
and those in `erq`. -/
def outstanding (f : LaptopFactory) (j : Journal) : List Update :=
  (j.line.filterMap f.leaderThread ++ f.erq).map LeaderRequest.update

/-! ## The property -/

section Property

variable (s customerId : ℤ) (p₀ p : Cluster × (ℤ → Journal))

/-- The order numbers of the customer's entries appended since `p₀`. -/
def appendedSince : List ℤ :=
  ordersOf customerId
    (((p.1.server s).metadata.smrLog.drop (p₀.1.server s).metadata.smrLog.length).map MapOp.update)

/-- The order numbers of the customer's requests, in the order in which they were sent: those
that were outstanding at `p₀`, and those that arrived since. -/
def sentSince : List ℤ :=
  ordersOf customerId (outstanding (p₀.1.server s) (p₀.2 s)) ++
    ordersOf customerId
      (((p.2 s).sent.drop (p₀.2 s).sent.length).map CustomerRequest.update)

/-- No entry of the customer is uncommitted. -/
def AllCommitted (md : ServerMetadata) : Prop :=
  ∀ op ∈ md.smrLog.drop md.commitLength.toNat, op.arg1 ≠ customerId

instance (md : ServerMetadata) : Decidable (AllCommitted customerId md) := by
  unfold AllCommitted
  infer_instance

/-- Between `p₀` and `p`, the entries of the customer are appended in the order in which the
requests were sent; once all are there and committed, the record holds the last one. -/
structure OrderKept : Prop where
  entries : appendedSince s customerId p₀ p <+: sentSince s customerId p₀ p
  record : appendedSince s customerId p₀ p = sentSince s customerId p₀ p →
    AllCommitted customerId (p.1.server s).metadata →
    ∀ order ∈ (sentSince s customerId p₀ p).getLast?,
      (p.1.server s).metadata.getValue customerId = order

/-- The server is a leader before the step and after it. -/
def StaysLeader (l : Label) : Prop :=
  (p.1.server s).metadata.status = .leader ∧
    ∀ q ∈ p.1.act l, (q.1.server s).metadata.status = .leader

/-- The customer sends an update only when it has the replies to all earlier ones. -/
def AwaitsReplies : Label → Prop
  | .createLaptop q _ request => q = s → request.customerId = customerId →
      (ordersOf customerId ((p.2 s).sent.map CustomerRequest.update)).length =
        ((p.2 s).shipped.filter (·.customerId = customerId)).length
  | _ => True

/-- A `LeaderThread` enters `LeaderMaintainLog` with a request of the customer only when no other
one waits for the lock with a request of the customer that it took earlier. -/
def InTurn : Label → Prop
  | .leaderMaintainLog q i _ => q = s →
      ∀ req ∈ (p.1.server s).leaderThread i, req.laptop.customerId = customerId →
        ∀ i' ∈ (p.2 s).line.takeWhile (· ≠ i), ∀ req' ∈ (p.1.server s).leaderThread i',
          req'.laptop.customerId ≠ customerId
  | _ => True

instance (l : Label) : Decidable (StaysLeader s p l) := by
  unfold StaysLeader
  infer_instance

instance (l : Label) : Decidable (AwaitsReplies s customerId p l) := by
  induction l using Label.casesOn <;> dsimp only [AwaitsReplies] <;> infer_instance

instance (l : Label) : Decidable (InTurn s customerId p l) := by
  induction l using Label.casesOn <;> dsimp only [InTurn] <;> infer_instance

instance : Decidable (OrderKept s customerId p₀ p) :=
  decidable_of_iff
    ((appendedSince s customerId p₀ p <+: sentSince s customerId p₀ p) ∧
      (appendedSince s customerId p₀ p = sentSince s customerId p₀ p →
        AllCommitted customerId (p.1.server s).metadata →
        ∀ order ∈ (sentSince s customerId p₀ p).getLast?,
          (p.1.server s).metadata.getValue customerId = order))
    ⟨fun h => ⟨h.1, h.2⟩, fun h => ⟨h.entries, h.record⟩⟩

end Property

/-! ## The line of waiting threads -/

/-- What the line says about the `LeaderThread`s: those in line hold a request, and the one that
holds a request and is not in line is inside `LeaderMaintainLog`. -/
structure Lined (f : LaptopFactory) (j : Journal) : Prop where
  nodup : j.line.Nodup
  holds : ∀ i ∈ j.line, (f.leaderThread i).isSome
  waits : ∀ i, (f.leaderThread i).isSome → i ∈ j.line ∨ f.Maintains i
  maintains : ∀ i, f.Maintains i → i ∉ j.line ∧ (f.leaderThread i).isSome

section Lined

variable {q : ℤ} {l : Label} {f f' : LaptopFactory} {j j' : Journal} {i : Fin 4}

/-- A thread without a request is nowhere. -/
lemma Lined.of_idle (h : Lined f j) (hidle : f.leaderThread i = none) :
    i ∉ j.line ∧ ¬ f.Maintains i := by
  have hnot : ¬ (f.leaderThread i).isSome := by
    rw [hidle]
    exact Bool.false_ne_true
  exact ⟨fun hin => hnot (h.holds i hin), fun hmaintains => hnot (h.maintains i hmaintains).2⟩

/-- A thread takes a request and gets in line. -/
lemma Lined.take (h : Lined f j) (hidle : f.leaderThread i = none) {req : LeaderRequest}
    (hthread : f'.leaderThread = Function.update f.leaderThread i (some req))
    (hlock : ∀ i, f'.Maintains i ↔ f.Maintains i) (hline : j'.line = j.line ++ [i]) :
    Lined f' j' := by
  obtain ⟨hout, hfree⟩ := h.of_idle hidle
  have hself : (f'.leaderThread i).isSome := by
    rw [hthread, Function.update_self]
    rfl
  have hother : ∀ i', i' ≠ i → f'.leaderThread i' = f.leaderThread i' := by
    intro i' hi
    rw [hthread, Function.update_of_ne hi]
  refine ⟨?_, ?_, ?_, ?_⟩
  · rw [hline]
    exact List.nodup_append_comm.1 (List.nodup_cons.2 ⟨hout, h.nodup⟩)
  · intro i' hin
    by_cases hi : i' = i
    · rwa [hi]
    · rw [hother i' hi]
      exact h.holds i' (by simpa [hline, hi] using hin)
  · intro i' hsome
    by_cases hi : i' = i
    · exact Or.inl (by simp [hline, hi])
    · rw [hother i' hi] at hsome
      exact (h.waits i' hsome).imp (fun hin => hline ▸ List.mem_append_left _ hin) (hlock i').2
  · intro i' hmaintains
    have hbefore := (hlock i').1 hmaintains
    have hi : i' ≠ i := by
      rintro rfl
      exact hfree hbefore
    obtain ⟨hout', hsome⟩ := h.maintains i' hbefore
    exact ⟨by simp [hline, hout', hi], (hother i' hi).symm ▸ hsome⟩

/-- A thread gets `meta_lock` and leaves the line. -/
lemma Lined.append (h : Lined f j) (hsome : (f.leaderThread i).isSome)
    (hfree : f.metaLock = .free) (hthread : f'.leaderThread = f.leaderThread)
    (hlock : ∀ i', f'.Maintains i' ↔ i' = i) (hline : j'.line = j.line.erase i) :
    Lined f' j' := by
  refine ⟨hline ▸ h.nodup.erase i, ?_, ?_, ?_⟩
  · intro i' hin
    rw [hline] at hin
    rw [hthread]
    exact h.holds i' (List.mem_of_mem_erase hin)
  · intro i' hsome'
    rw [hthread] at hsome'
    have hin := (h.waits i' hsome').resolve_right
      (LaptopFactory.not_maintains_of_free hfree i')
    by_cases hi : i' = i
    · exact Or.inr ((hlock i').2 hi)
    · exact Or.inl (hline ▸ (List.mem_erase_of_ne hi).2 hin)
  · intro i' hmaintains
    obtain rfl := (hlock i').1 hmaintains
    exact ⟨hline ▸ h.nodup.not_mem_erase, hthread ▸ hsome⟩

/-- A thread returns from `LeaderMaintainLog`. -/
lemma Lined.leave (h : Lined f j) (hlock : f.Maintains i) (hfree : f'.metaLock = .free)
    (hthread : f'.leaderThread = Function.update f.leaderThread i none) : Lined f' j := by
  have hother : ∀ i', i' ≠ i → f'.leaderThread i' = f.leaderThread i' := by
    intro i' hi
    rw [hthread, Function.update_of_ne hi]
  refine ⟨h.nodup, ?_, ?_, fun i' hmaintains =>
    absurd hmaintains (LaptopFactory.not_maintains_of_free hfree i')⟩
  · intro i' hin
    have hi : i' ≠ i := by
      rintro rfl
      exact (h.maintains _ hlock).1 hin
    rw [hother i' hi]
    exact h.holds i' hin
  · intro i' hsome
    have hi : i' ≠ i := by
      rintro rfl
      rw [hthread, Function.update_self] at hsome
      cases hsome
    rw [hother i' hi] at hsome
    refine Or.inl ((h.waits i' hsome).resolve_right fun hmaintains => hi ?_)
    obtain ⟨loop, hlock⟩ := hlock
    rw [LaptopFactory.maintains_iff_of_caller hlock] at hmaintains
    exact (Caller.leaderThread.inj hmaintains).symm

lemma UpdateStep.lined (hstep : UpdateStep q l f f' j j') (h : Lined f j) : Lined f' j' := by
  cases hstep with
  | arrive hlabel hidle hserver hjournal | ship hlabel hresolved hserver hjournal =>
      subst hserver hjournal
      exact ⟨h.nodup, h.holds, h.waits, h.maintains⟩
  | take hlabel herq hidle hserver hjournal =>
      subst hserver hjournal
      exact h.take hidle rfl (fun _ => Iff.rfl) rfl
  | append hlabel hreq hfree hserver hjournal =>
      subst hserver hjournal
      refine h.append (Option.isSome_iff_exists.2 ⟨_, hreq⟩) hfree rfl (fun i' => ?_) rfl
      rw [LaptopFactory.maintains_iff_of_caller rfl, Caller.leaderThread.injEq, eq_comm]
  | leave hlock hfree hthread herq hcustomer hlog hjournal =>
      subst hjournal
      exact h.leave hlock hfree hthread
  | other hthread herq hcustomer hlock hlog hjournal =>
      subst hjournal
      refine ⟨h.nodup, hthread ▸ h.holds, ?_, ?_⟩
      · intro i hsome
        rw [hthread] at hsome
        exact (h.waits i hsome).imp_right (hlock i).2
      · intro i hmaintains
        rw [hthread]
        exact h.maintains i ((hlock i).1 hmaintains)

end Lined

/-! ## One step -/

/-- The entries appended and the updates left outstanding are the updates that were outstanding
and the requests that arrived, in this order for each customer. -/
def Forwarded (customerId : ℤ) (f f' : LaptopFactory) (j j' : Journal) : Prop :=
  ∃ entries requests, f'.metadata.smrLog = f.metadata.smrLog ++ entries ∧
    j'.sent = j.sent ++ requests ∧
    ordersOf customerId (entries.map MapOp.update) ++ ordersOf customerId (outstanding f' j') =
      ordersOf customerId (outstanding f j) ++
        ordersOf customerId (requests.map CustomerRequest.update)

section Forwarded

variable {customerId : ℤ} {f f' f'' : LaptopFactory} {j j' j'' : Journal}

lemma Forwarded.of_same (hlog : f'.metadata.smrLog = f.metadata.smrLog) (hsent : j'.sent = j.sent)
    (houtstanding : outstanding f' j' = outstanding f j) : Forwarded customerId f f' j j' := by
  refine ⟨[], [], by simp [hlog], by simp [hsent], ?_⟩
  rw [houtstanding]
  simp [ordersOf]

lemma Forwarded.trans (h₁ : Forwarded customerId f f' j j')
    (h₂ : Forwarded customerId f' f'' j' j'') : Forwarded customerId f f'' j j'' := by
  obtain ⟨entries₁, requests₁, hlog₁, hsent₁, horders₁⟩ := h₁
  obtain ⟨entries₂, requests₂, hlog₂, hsent₂, horders₂⟩ := h₂
  refine ⟨entries₁ ++ entries₂, requests₁ ++ requests₂, ?_, ?_, ?_⟩
  · rw [hlog₂, hlog₁, List.append_assoc]
  · rw [hsent₂, hsent₁, List.append_assoc]
  · rw [List.map_append, List.map_append, ordersOf_append, ordersOf_append, List.append_assoc,
      horders₂, ← List.append_assoc, horders₁, List.append_assoc]

lemma filterMap_update_of_notMem {i : Fin 4} {line : List (Fin 4)}
    {held : Fin 4 → Option LeaderRequest} {req : Option LeaderRequest} (hout : i ∉ line) :
    line.filterMap (Function.update held i req) = line.filterMap held := by
  refine List.filterMap_congr fun i' hin => Function.update_of_ne ?_ _ _
  rintro rfl
  exact hout hin

/-- The head of the customer's line is appended. -/
lemma outstanding_erase {i : Fin 4} {req : LeaderRequest} (hline : i ∈ j.line)
    (hreq : f.leaderThread i = some req)
    (hturn : req.laptop.customerId = customerId → ∀ i' ∈ j.line.takeWhile (· ≠ i),
      ∀ req' ∈ f.leaderThread i', req'.laptop.customerId ≠ customerId) :
    ordersOf customerId (outstanding f j) =
      ordersOf customerId [req.update] ++
        ordersOf customerId (outstanding f { j with line := j.line.erase i }) := by
  obtain ⟨earlier, later, hsplit, hfirst⟩ := List.eq_append_cons_of_mem hline
  have htake : j.line.takeWhile (· ≠ i) = earlier := by
    rw [hsplit, List.takeWhile_append_of_pos]
    · simp
    · intro i' hin
      have hne : i' ≠ i := fun heq => hfirst (heq ▸ hin)
      simpa using hne
  have herase : j.line.erase i = earlier ++ later := by
    rw [hsplit, List.erase_append_right _ hfirst, List.erase_cons_head]
  -- the request passes the earlier ones of its line, none of which is of the same customer
  have hswap : ordersOf customerId ((earlier.filterMap f.leaderThread).map LeaderRequest.update) ++
      ordersOf customerId [req.update] = ordersOf customerId [req.update] ++
        ordersOf customerId ((earlier.filterMap f.leaderThread).map LeaderRequest.update) := by
    by_cases hcustomer : req.laptop.customerId = customerId
    · have hnone : ordersOf customerId
          ((earlier.filterMap f.leaderThread).map LeaderRequest.update) = [] := by
        refine ordersOf_eq_nil fun u hu => ?_
        obtain ⟨req', hreq', rfl⟩ := List.mem_map.1 hu
        obtain ⟨i', hin, hheld⟩ := List.mem_filterMap.1 hreq'
        exact hturn hcustomer i' (htake ▸ hin) req' hheld
      rw [hnone, List.append_nil, List.nil_append]
    · have hnone : ordersOf customerId [req.update] = [] := by
        refine ordersOf_eq_nil fun u hu => ?_
        rw [List.mem_singleton.1 hu]
        exact hcustomer
      rw [hnone, List.append_nil, List.nil_append]
  unfold outstanding
  rw [herase, hsplit]
  simp only [List.filterMap_append, List.filterMap_cons, hreq, List.map_append, List.map_cons,
    List.append_assoc, List.cons_append, ordersOf_append]
  rw [← List.singleton_append, ordersOf_append, ordersOf_append, ← List.append_assoc, hswap,
    List.append_assoc]

lemma UpdateStep.forwarded {s : ℤ} {l : Label} (hstep : UpdateStep s l f f' j j')
    (hlined : Lined f j) (hleader : f'.metadata.status = .leader)
    (hturn : ∀ i accepts, l = .leaderMaintainLog s i accepts → ∀ req ∈ f.leaderThread i,
      req.laptop.customerId = customerId → ∀ i' ∈ j.line.takeWhile (· ≠ i),
        ∀ req' ∈ f.leaderThread i', req'.laptop.customerId ≠ customerId) :
    Forwarded customerId f f' j j' := by
  cases hstep with
  | @arrive stub request hlabel hidle hserver hjournal =>
      subst hserver hjournal
      refine ⟨[], [request], by simp, rfl, ?_⟩
      have hout : outstanding
          { f with
            erq := f.erq ++ [⟨LaptopInfo.ofRequest request stub, stub⟩]
            customer := Function.update f.customer stub .waiting }
          { j with
            sent := j.sent ++ [request]
            taker := Function.update j.taker stub none
            place := Function.update j.place stub none } = outstanding f j ++ [request.update] := by
        simp only [outstanding, List.map_append, List.append_assoc]
        rfl
      rw [hout, ordersOf_append]
      rfl
  | @take i req rest hlabel herq hidle hserver hjournal =>
      subst hserver hjournal
      refine Forwarded.of_same rfl rfl ?_
      have hout := (hlined.of_idle hidle).1
      unfold outstanding
      simp only [List.filterMap_append, filterMap_update_of_notMem hout, herq,
        List.filterMap_cons, Function.update_self, List.filterMap_nil, List.map_append,
        List.append_assoc, List.map_cons, List.map_nil]
      rfl
  | ship hlabel hresolved hserver hjournal =>
      subst hserver hjournal
      exact Forwarded.of_same rfl rfl rfl
  | @append i req accepts ack hlabel hreq hfree hserver hjournal =>
      subst hserver hjournal
      refine ⟨[f.metadata.newEntry req], [], rfl, (List.append_nil _).symm, ?_⟩
      have hline : i ∈ j.line := (hlined.waits i (by rw [hreq]; rfl)).resolve_right
        (LaptopFactory.not_maintains_of_free hfree i)
      rw [outstanding_erase hline hreq (hturn i accepts hlabel req hreq)]
      exact (List.append_nil _).symm
  | @leave i hlock hfree hthread herq hcustomer hlog hjournal =>
      subst hjournal
      refine Forwarded.of_same hlog rfl ?_
      unfold outstanding
      rw [hthread, herq, filterMap_update_of_notMem (hlined.maintains i hlock).1]
  | other hthread herq hcustomer hlock hlog hjournal =>
      subst hjournal
      refine Forwarded.of_same (hlog.resolve_right ?_) rfl ?_
      · rw [hleader]
        simp
      · unfold outstanding
        rw [hthread, herq]

/-- The record of a customer whose entries are all committed. -/
lemma getValue_of_allCommitted {md : ServerMetadata} (hstored : Stored md)
    (hdone : AllCommitted customerId md) :
    md.getValue customerId =
      (ordersOf customerId (md.smrLog.map MapOp.update)).getLast?.getD (-1) := by
  have hnone : ordersOf customerId
      ((md.smrLog.drop md.commitLength.toNat).map MapOp.update) = [] := by
    refine ordersOf_eq_nil fun u hu => ?_
    obtain ⟨op, hop, rfl⟩ := List.mem_map.1 hu
    exact hdone op hop
  have hall : ordersOf customerId (md.smrLog.map MapOp.update) =
      ordersOf customerId ((md.smrLog.take md.commitLength.toNat).map MapOp.update) := by
    rw [← List.append_nil (ordersOf customerId ((md.smrLog.take _).map MapOp.update)), ← hnone,
      ← ordersOf_append, ← List.map_append, List.take_append_drop]
  rw [hstored.getValue_eq, lastOrder_eq, hall]

/-- The last order number is in the record, when everything is appended and committed. -/
lemma Forwarded.getValue (h : Forwarded customerId f f' j j') (hstored : Stored f'.metadata)
    (hdone : AllCommitted customerId f'.metadata) {order : ℤ}
    (hlast : order ∈ (ordersOf customerId
      ((f'.metadata.smrLog.drop f.metadata.smrLog.length).map MapOp.update)).getLast?) :
    f'.metadata.getValue customerId = order := by
  obtain ⟨entries, -, hlog, -⟩ := h
  rw [hlog, List.drop_left] at hlast
  rw [getValue_of_allCommitted hstored hdone, hlog, List.map_append, ordersOf_append,
    List.getLast?_append, Option.mem_def.1 hlast]
  rfl

end Forwarded

/-! ## Runs -/

section Runs

variable {cfg : Config} {ok : Cluster × (ℤ → Journal) → Label → Prop} {s customerId : ℤ}

lemma lined_of_run {p : Cluster × (ℤ → Journal)} {tr : List Event}
    (hrun : (journaled cfg).Run ok p tr) (hs : s ∈ cfg.ids) : Lined (p.1.server s) (p.2 s) :=
  journal_invariant hs
    (fun _ => ⟨List.nodup_nil, nofun, nofun, fun i hmaintains =>
      absurd hmaintains (LaptopFactory.not_maintains_of_free rfl i)⟩)
    (fun _ _ _ _ _ _ _ _ hstep hlined => hstep.lined hlined) hrun

variable {r r' : (Cluster × (ℤ → Journal)) × List Event}

theorem forwarded_of_path (hs : s ∈ cfg.ids)
    (hpath : (journaled cfg).Path (fun p l => StaysLeader s p l ∧ InTurn s customerId p l) r r')
    (hrun : (journaled cfg).Run TransitionSystem.anyStep r.1 r.2) :
    Forwarded customerId (r.1.1.server s) (r'.1.1.server s) (r.1.2 s) (r'.1.2 s) := by
  refine TransitionSystem.Path.relates
    (R := fun p p' => Forwarded customerId (p.1.server s) (p'.1.server s) (p.2 s) (p'.2 s))
    (fun p => Forwarded.of_same rfl rfl rfl) (fun _ _ _ => Forwarded.trans) ?_ hpath hrun
  rintro p tr l p' es hrun ⟨⟨-, hstays⟩, hturn⟩ hst
  have hleader : (p'.1.server s).metadata.status = .leader :=
    hstays _ (act_of_step (TransitionSystem.observed_step_iff.1 hst).1)
  refine (updateStep_of_step hrun hst hs).forwarded (lined_of_run hrun hs) hleader ?_
  rintro i accepts rfl
  exact hturn rfl

/-- **Per-customer order.**  While a server stays leader, and as long as no `LeaderThread` enters
`LeaderMaintainLog` ahead of another one that took an earlier request of the same customer. -/
theorem order_kept (hs : s ∈ cfg.ids)
    (hrun : (journaled cfg).Run TransitionSystem.anyStep r.1 r.2)
    (hpath : (journaled cfg).Path (fun p l => StaysLeader s p l ∧ InTurn s customerId p l) r r') :
    OrderKept s customerId r.1 r'.1 := by
  have hforwarded := forwarded_of_path hs hpath hrun
  have hrecord := hforwarded.getValue (wellFormed (hpath.run hrun).forget hs).sound.stored
  obtain ⟨entries, requests, hlog, hsent, horders⟩ := hforwarded
  constructor
  · refine ⟨ordersOf customerId (outstanding (r'.1.1.server s) (r'.1.2 s)), ?_⟩
    unfold appendedSince sentSince
    rw [hlog, hsent, List.drop_left, List.drop_left, horders]
  · intro hall hdone order hlast
    rw [← hall] at hlast
    exact hrecord hdone hlast

end Runs

/-- One update of a customer, from its request to the commit. -/
theorem order_kept_oneUpdate : ∃ r r' : (Cluster × (ℤ → Journal)) × List Event,
    (journaled three).Run TransitionSystem.anyStep r.1 r.2 ∧
    (r'.1.1.server 0).metadata.getValue 7 = 1 ∧ sentSince 0 7 r.1 r'.1 = [1] ∧
    OrderKept 0 7 r.1 r'.1 := by
  obtain ⟨r, r', hrun, hpath, hvalue, hsent⟩ := path_of_playJournaled three
    (fun p l => StaysLeader 0 p l ∧ InTurn 0 7 p l)
    (P := fun p p' => (p'.1.server 0).metadata.getValue 7 = 1 ∧ sentSince 0 7 p p' = [1])
    (stand 0 ++ callVote 0)
    (submit 0 7 1 ++ callLog 0 ++ callLog 0 ++ [.endRound 0] ++ callLog 0 ++ callLog 0 ++
      [.endRound 0])
    (by decide +kernel)
  exact ⟨r, r', hrun, hvalue, hsent, order_kept (by decide) hrun hpath⟩

/-- Customer 7 sends order 2 when it has the reply to order 1.  `LeaderThread` 1, which took order
2, gets the lock before `LeaderThread` 0, which took order 1. -/
theorem order_swapped : ∃ r r',
    (journaled three).Run TransitionSystem.anyStep r.1 r.2 ∧
    (journaled three).Path (fun p l => StaysLeader 0 p l ∧ AwaitsReplies 0 7 p l) r r' ∧
    ((r'.1.1.server 0).metadata.smrLog = [⟨1, 7, 2⟩, ⟨1, 7, 1⟩] ∧
      (r'.1.1.server 0).metadata.commitLength = 2 ∧
      (r'.1.1.server 0).metadata.getValue 7 = 1) ∧
    sentSince 0 7 r.1 r'.1 = [1, 2] ∧ ¬ OrderKept 0 7 r.1 r'.1 :=
  path_of_playJournaled three (fun p l => StaysLeader 0 p l ∧ AwaitsReplies 0 7 p l)
    (P := fun p p' => ((p'.1.server 0).metadata.smrLog = [⟨1, 7, 2⟩, ⟨1, 7, 1⟩] ∧
        (p'.1.server 0).metadata.commitLength = 2 ∧ (p'.1.server 0).metadata.getValue 7 = 1) ∧
      sentSince 0 7 p p' = [1, 2] ∧ ¬ OrderKept 0 7 p p')
    (stand 0 ++ callVote 0)
    ([.createLaptop 0 0 ⟨7, 1, 1⟩, .dequeue 0 0, .shipLaptop 0 0, .createLaptop 0 0 ⟨7, 2, 1⟩,
      .dequeue 0 1, .shipLaptop 0 0, .leaderMaintainLog 0 1 []] ++
      callLog 0 ++ callLog 0 ++ [.endRound 0] ++ callLog 0 ++ callLog 0 ++
      [.endRound 0, .leaderMaintainLog 0 0 []] ++
      callLog 0 ++ callLog 0 ++ [.endRound 0] ++ callLog 0 ++ callLog 0 ++ [.endRound 0])
    (by decide +kernel)

end LaptopRaft
