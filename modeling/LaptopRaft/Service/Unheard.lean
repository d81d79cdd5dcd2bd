import LaptopRaft.Model.Scenario
import LaptopRaft.Properties.Reach
import LaptopRaft.Properties.Replay
import LaptopRaft.Service.Provenance

/-!
# A server that nobody calls

A server that is started after all the others have tried to connect is in nobody's `node_socket`.
It is never called, in no run: it votes for nobody but itself, follows no leader, and has in its
log what its own `LeaderThread`s appended and nothing else.  It may well lead, since it is connected
to the others; a customer that reads there sees only what was ordered there.
-/

namespace LaptopRaft

open TransitionSystem

section Unheard

variable {cfg : Config} {connects : ℤ → ServerNode → Bool} {ok : Cluster → Label → Prop}
  {c c' : Cluster} {tr es : List Event} {l : Label} {s p : ℤ} {f f' : LaptopFactory}

/-- The only vote of a thread is the one for itself. -/
lemma ThreadStep.ownVote (hstep : ThreadStep s f l f' es) {q t a : ℤ} {log : List MapOp}
    (hvote : .vote q t a log ∈ es) : a = s := by
  cases hstep with
  | stand =>
      rw [standEvents, List.mem_singleton, Event.vote.injEq] at hvote
      exact hvote.2.2.1
  | queue hqueue =>
      obtain ⟨laptop, hship⟩ := hqueue.events _ hvote
      cases hship
  | entryAnswered =>
      obtain ⟨k, -, hk⟩ := List.mem_filterMap.1 hvote
      obtain ⟨op, -, hcommit⟩ := Option.map_eq_some_iff.1 hk
      cases hcommit
  | _ => simp at hvote

/-- The log of a server that is never called, and its votes. -/
structure Alone (p : ℤ) (c : Cluster) (tr : List Event) : Prop where
  log : (c.server p).metadata.smrLog = appendsOf p tr
  votes : ∀ t a log, .vote p t a log ∈ tr → a = p

/-- What another server does is not seen. -/
lemma Alone.frame (h : Alone p c tr) (hlog : (c'.server p).metadata.smrLog =
    (c.server p).metadata.smrLog) {q : ℤ} (hes : ∀ e ∈ es, e.server = q) (hq : p ≠ q) :
    Alone p c' (tr ++ es) := by
  refine ⟨?_, fun t a log hvote => ?_⟩
  · rw [hlog, h.log, appendsOf_append, appendsOf_other hes hq, List.append_nil]
  · rcases List.mem_append.1 hvote with hold | hnew
    · exact h.votes t a log hold
    · exact absurd (hes _ hnew) hq

/-- A thread of the server itself moves. -/
lemma Alone.thread (h : Alone p c tr) (hwf : WellFormed cfg p (c.server p))
    (hstep : ThreadStep p (c.server p) l (c'.server p) es) : Alone p c' (tr ++ es) := by
  refine ⟨?_, fun t a log hvote => ?_⟩
  · rw [appendsOf_append, ← h.log]
    cases hstep.logStep hwf with
    | quiet hsilent hlog =>
        have hnone : NoAppend es := fun q op hin => not_silent_append q op (hsilent _ hin)
        rw [hlog, hnone.appendsOf, List.append_nil]
    | elected hlock hlog hterm hes =>
        subst hes
        rw [hlog]
        exact (List.append_nil _).symm
    | @append i accepts op hlabel hop hlog hterm hes =>
        subst hes
        have happends : appendsOf p [.append p op, .accept p (c.server p).metadata.currentTerm
            ((c.server p).metadata.logSize + 1)] = [op] := by
          simp [appendsOf]
        rw [hlog, happends]
  · rcases List.mem_append.1 hvote with hold | hnew
    · exact h.votes t a log hold
    · exact hstep.ownVote hnew

lemma Alone.step (hrun : (system cfg).Run ok c tr) (hp : p ∈ cfg.ids) (h : Alone p c tr)
    (hnone : ∀ rpc, c.delivered l ≠ some (p, rpc))
    (hst : (system cfg).step c l = some (c', es)) : Alone p c' (tr ++ es) := by
  rcases step_cases hst with ⟨q, g, hq, hstep, hserver, -⟩ |
    ⟨q, rpc, reply, hdelivered, hhandled, rfl⟩
  · by_cases hpq : p = q
    · subst hpq
      have hself : c'.server p = g := by
        rw [hserver, Function.update_self]
      rw [← hself] at hstep
      exact h.thread (wellFormed hrun hp) hstep
    · have hsame : c'.server p = c.server p := by
        rw [hserver, Function.update_of_ne hpq]
      exact h.frame (by rw [hsame]) hstep.server_eq hpq
  · have hpq : p ≠ q := by
      rintro rfl
      exact hnone rpc hdelivered
    exact h.frame (by rw [hhandled.others p hpq]) (fun e he => serveEvents_server he) hpq

lemma alone_boot (cfg : Config) (connects : ℤ → ServerNode → Bool) (p : ℤ) :
    Alone p (boot cfg connects) [] := by
  obtain ⟨index, heq, -⟩ := bootMetadata_eq cfg connects p
  have hmetadata : ((boot cfg connects).server p).metadata = _ := heq
  refine ⟨?_, fun t a log hvote => absurd hvote List.not_mem_nil⟩
  rw [hmetadata]
  rfl

/-- **A server that nobody reached at start-up** is left alone: it is handed no request, its log is
what it appended itself, its votes are for itself, and what is read there was ordered there. -/
theorem unheard (hp : p ∈ cfg.ids) (hnone : ∀ s, ¬ cfg.Reaches connects s p)
    (hpath : (system cfg).Path anyStep (boot cfg connects, []) (c, tr)) :
    (∀ l c' es rpc, (system cfg).step c l = some (c', es) → c.delivered l ≠ some (p, rpc)) ∧
      (c.server p).metadata.smrLog = appendsOf p tr ∧
      (∀ customer, (c.server p).metadata.getValue customer =
        lastOrder ((appendsOf p tr).take (c.server p).metadata.commitLength.toNat) customer) ∧
      ∀ t a log, .vote p t a log ∈ tr → a = p := by
  have hstart : (system cfg).Run anyStep (boot cfg connects) [] := .init ⟨connects, rfl⟩
  have hundelivered : ∀ {c c' : Cluster} {tr es : List Event} {l : Label} {rpc : Rpc},
      Confined cfg (cfg.Reaches connects) c → (system cfg).Run anyStep c tr →
      (system cfg).step c l = some (c', es) → c.delivered l ≠ some (p, rpc) := by
    intro c c' tr es l rpc hconfined hrun hst hdelivered
    obtain ⟨s, hreaches⟩ := hconfined.delivered hrun hst hdelivered
    exact hnone s hreaches
  have halone : Confined cfg (cfg.Reaches connects) c ∧ Alone p c tr := by
    refine Path.invariant_trace
      (I := fun c tr => Confined cfg (cfg.Reaches connects) c ∧ Alone p c tr) ?_ hpath hstart
      ⟨confined_boot cfg connects, alone_boot cfg connects p⟩
    rintro c tr l c' es hrun - hst ⟨hconfined, h⟩
    exact ⟨hconfined.step hrun hst,
      h.step hrun hp (fun rpc => hundelivered hconfined hrun hst) hst⟩
  have hrun := run_of_boot hpath
  refine ⟨fun l c' es rpc hst => hundelivered halone.1 hrun hst, halone.2.log, fun customer => ?_,
    halone.2.votes⟩
  rw [(wellFormed hrun hp).sound.stored.getValue_eq, halone.2.log]

end Unheard

/-- Server 2 is started last, is elected by server 0 and takes an update, which it commits. -/
def lastLeads : List Label :=
  stand 2 ++ callVote 2 ++ submit 2 7 1 ++ callLog 2 ++ callLog 2 ++ [.endRound 2] ++
    callLog 2 ++ callLog 2 ++ [.endRound 2]

theorem unheard_last : ∃ c tr, (system three).Path anyStep (boot three startedInOrder, []) (c, tr) ∧
    (c.server 2).metadata.getValue 7 = 1 ∧ (c.server 2).metadata.smrLog = appendsOf 2 tr := by
  obtain ⟨c, tr, hpath, hvalue⟩ := path_of_playFrom three anyStep
    (P := fun c _ => (c.server 2).metadata.getValue 7 = 1) startedInOrder lastLeads
    (by decide +kernel)
  have hnone : ∀ s, ¬ three.Reaches startedInOrder s 2 := by
    rintro s ⟨hs, hreached⟩
    obtain ⟨node, -, hbefore, hid⟩ := Config.mem_reached.1 hreached
    have hlt : node.id < s := of_decide_eq_true hbefore
    have hle : ∀ q ∈ three.ids, q ≤ 2 := by decide
    have := hle s hs
    omega
  exact ⟨c, tr, hpath, hvalue, (unheard (by decide) hnone hpath).2.1⟩

end LaptopRaft
