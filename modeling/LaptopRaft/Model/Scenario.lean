import LaptopRaft.Model.Cluster

/-!
# Running a cluster by hand

Runs are given as lists of labels.  `play` executes a list from start-up, with every connection
accepted, and `run_of_play` turns a successful execution into a run of the system that ends in
a state with a decidable property.  `playFrom` is the same with a choice of the connections that
are accepted at start-up.

The lists are put together from the calls of the source: a candidacy (`stand`), one round of
`RequestVote` (`callVote`) and of `ReplicateLog` (`callLog`), a client's update (`submit`).
-/

namespace LaptopRaft

/-- The cluster of the given members; each lists the others in this order. -/
def Config.mesh (members : List ℤ) (hnodup : members.Nodup) : Config where
  ids := members.toFinset
  peers s := (members.filter (· ≠ s)).map fun id => ⟨members.idxOf id, id, "", 0⟩
  peers_nodup s _ := by
    rw [List.map_map]
    exact (List.map_id (members.filter (· ≠ s))).symm ▸ hnodup.filter _
  mem_peers s _ x := by simp

/-! ## Scripts -/

/-- The heartbeat wait of `TimeoutThread` ends. -/
def timeOut (s : ℤ) : List Label := [.readStatus s, .testHeartbeat s]

/-- A follower without heartbeat becomes a candidate and enters `RequestVote`. -/
def stand (s : ℤ) : List Label := timeOut s ++ [.readStatus s, .requestVote s]

/-- One round of `RequestVote`. -/
def callVote (s : ℤ) : List Label := [.sendRequestVote s, .handle s, .recvVoteResponse s]

/-- One round of the inner loop of `ReplicateLog`. -/
def callLog (s : ℤ) : List Label := [.sendLogRequest s, .handle s, .recvLogResponse s]

/-- `TimeoutThread`, case `LEADER`, up to the loop of `ReplicateLog`. -/
def heartbeat (s : ℤ) : List Label := [.readStatus s, .replicateLog s []]

/-- A client updates its order; a `LeaderThread` takes the update and enters
`LeaderMaintainLog`. -/
def submit (s : ℤ) (customer order : ℤ) : List Label :=
  [.createLaptop s 0 ⟨customer, order, 1⟩, .dequeue s 0, .leaderMaintainLog s 0 [],
    .shipLaptop s 0]

/-- Three servers, and an undisturbed run: server 0 is elected by server 1, takes one update and
replicates it until everyone has executed it. -/
def three : Config := Config.mesh [0, 1, 2] (by decide)

def oneUpdate : List Label :=
  stand 0 ++ callVote 0 ++ submit 0 7 1 ++ callLog 0 ++ callLog 0 ++ [.endRound 0] ++
    callLog 0 ++ callLog 0 ++ [.endRound 0]

/-! ## Execution -/

section Play

variable (cfg : Config) (ok : Cluster → Label → Prop) [∀ c l, Decidable (ok c l)]

def play (labels : List Label) : Option (Cluster × List Event) :=
  (system cfg).exec ok (boot cfg fun _ _ => true) [] labels

def playFrom (connects : ℤ → ServerNode → Bool) (labels : List Label) :
    Option (Cluster × List Event) :=
  (system cfg).exec ok (boot cfg connects) [] labels

theorem path_of_playFrom {P : Cluster → List Event → Prop} [∀ c tr, Decidable (P c tr)]
    (connects : ℤ → ServerNode → Bool) (labels : List Label)
    (h : (playFrom cfg ok connects labels).any fun p => P p.1 p.2) :
    ∃ c tr, (system cfg).Path ok (boot cfg connects, []) (c, tr) ∧ P c tr := by
  rw [Option.any_eq_true] at h
  obtain ⟨⟨c, tr⟩, hplay, hP⟩ := h
  exact ⟨c, tr, TransitionSystem.exec_path hplay, of_decide_eq_true hP⟩

theorem run_of_playFrom {P : Cluster → List Event → Prop} [∀ c tr, Decidable (P c tr)]
    (connects : ℤ → ServerNode → Bool) (labels : List Label)
    (h : (playFrom cfg ok connects labels).any fun p => P p.1 p.2) :
    ∃ c tr, (system cfg).Run ok c tr ∧ P c tr := by
  obtain ⟨c, tr, hpath, hP⟩ := path_of_playFrom cfg ok connects labels h
  have hstart : (system cfg).Run ok (boot cfg connects) [] := .init ⟨connects, rfl⟩
  exact ⟨c, tr, hpath.run_of_imp (fun _ _ hok => hok) hstart, hP⟩

theorem run_of_play {P : Cluster → List Event → Prop} [∀ c tr, Decidable (P c tr)]
    (labels : List Label) (h : (play cfg ok labels).any fun p => P p.1 p.2) :
    ∃ c tr, (system cfg).Run ok c tr ∧ P c tr :=
  run_of_playFrom cfg ok (fun _ _ => true) labels h

end Play

end LaptopRaft
