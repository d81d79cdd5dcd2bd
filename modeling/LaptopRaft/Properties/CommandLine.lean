import LaptopRaft.Framework.Loop
import LaptopRaft.Framework.NumbersAndDots
import LaptopRaft.Model.CommandLine
import LaptopRaft.Model.Scenario
import LaptopRaft.Properties.WellFormed
import Mathlib.Data.List.TakeWhile

/-!
# What the command lines say

`Says argv line` is the grammar of a server's arguments.  `main` starts its threads exactly if its
arguments follow it and the port is free, and then with the metadata `line.metadata`
(`serverMain_started_iff`).

Nothing in `main` compares the arguments of one server with those of another.  The processes are a
`Config` if they have different ids and each names the ids of all the others once
(`config_of_commandLines`), and every `Config` whose numbers are `int`s comes from command lines
(`commandLines_of_config`).
-/

namespace LaptopRaft

/-! ## `atoi` reads what is printed -/

lemma toList_toString_int (n : ℤ) :
    (toString n).toList = if n < 0 then '-' :: Nat.toDigits 10 n.natAbs
      else Nat.toDigits 10 n.natAbs := by
  cases n with
  | ofNat m => simp [Int.toString_eq_repr, Int.repr, Nat.toList_repr]
  | negSucc m => simp [Int.toString_eq_repr, Int.repr, Nat.toList_repr, Int.negSucc_lt_zero]

lemma leadingNumber_toDigits (n : ℕ) : leadingNumber (Nat.toDigits 10 n) = n := by
  have hdigits : (Nat.toDigits 10 n).takeWhile Char.isDigit = Nat.toDigits 10 n :=
    List.takeWhile_eq_self_iff.2 fun c hc => Nat.isDigit_of_mem_toDigits (by decide) (by decide) hc
  rw [leadingNumber, hdigits, Nat.ofDigitChars_ten_toDigits]

/-- A numeral begins with a digit. -/
lemma exists_cons_toDigits (n : ℕ) :
    ∃ c cs, Nat.toDigits 10 n = c :: cs ∧ c.isDigit := by
  cases hdigits : Nat.toDigits 10 n with
  | nil => exact absurd hdigits Nat.toDigits_ne_nil
  | cons c cs =>
      have hc : c ∈ Nat.toDigits 10 n := hdigits ▸ List.mem_cons_self
      exact ⟨c, cs, rfl, Nat.isDigit_of_mem_toDigits (by decide) (by decide) hc⟩

lemma isSpace_of_isDigit {c : Char} (h : c.isDigit) : isSpace c = false := by
  have hlow := (Char.isDigit_iff_toNat.1 h).1
  have hblank : c ≠ ' ' := by
    rintro rfl
    exact absurd hlow (by decide)
  have hcontrol : ¬ c ≤ '\r' := fun hle => absurd (hlow.trans hle) (by decide)
  simp [isSpace, hblank, hcontrol]

/-- **`atoi` reads what is printed.** -/
theorem atoi_toString {n : ℤ} (h : IsInt n) : atoi (toString n) = some n := by
  obtain ⟨c, cs, hdigits, hc⟩ := exists_cons_toDigits n.natAbs
  have hread : (leadingNumber (c :: cs) : ℤ) = n.natAbs := by
    rw [← hdigits, leadingNumber_toDigits]
  by_cases hneg : n < 0
  · have hminus : (toString n).toList.dropWhile isSpace = '-' :: c :: cs := by
      rw [toList_toString_int, if_pos hneg, hdigits, List.dropWhile_cons_of_neg (by decide)]
    have hvalue : -(leadingNumber (c :: cs) : ℤ) = n := by omega
    simp only [atoi, hminus, hvalue, if_pos h]
  · have hplain : (toString n).toList.dropWhile isSpace = c :: cs := by
      rw [toList_toString_int, if_neg hneg, hdigits,
        List.dropWhile_cons_of_neg (by simp [isSpace_of_isDigit hc])]
    have hsign : c ≠ '-' ∧ c ≠ '+' := by
      constructor <;> rintro rfl <;> exact absurd hc (by decide)
    have hvalue : (leadingNumber (c :: cs) : ℤ) = n := by omega
    simp only [atoi, hplain]
    split
    · rename_i heq
      exact absurd (List.cons.inj heq).1 hsign.1
    · rename_i heq
      exact absurd (List.cons.inj heq).1 hsign.2
    · rw [hvalue, if_pos h]

/-! ## The grammar of the arguments -/

/-- The three arguments about a peer. -/
structure PeerArgs where
  id : ℤ
  ip : String
  port : ℤ
deriving DecidableEq

/-- What the arguments of a server say. -/
structure CommandLine where
  port : ℤ
  uniqueId : ℤ
  peers : List PeerArgs
deriving DecidableEq

/-- Arguments, three for each peer. -/
inductive SaysPeers : List String → List PeerArgs → Prop
  | nil : SaysPeers [] []
  | cons {id ip port : String} {args : List String} {n p : ℤ} {peers : List PeerArgs}
      (hid : atoi id = some n) (hport : atoi port = some p) (h : SaysPeers args peers) :
      SaysPeers (id :: ip :: port :: args) (⟨n, ip, p⟩ :: peers)

inductive Says : List String → CommandLine → Prop
  | intro {name port uniqueId numPeers : String} {args : List String} {p n : ℤ}
      {peers : List PeerArgs} (hport : atoi port = some p) (hid : atoi uniqueId = some n)
      (hcount : atoi numPeers = some (peers.length : ℤ)) (hpeers : SaysPeers args peers) :
      Says (name :: port :: uniqueId :: numPeers :: args) ⟨p, n, peers⟩

lemma SaysPeers.unique {args : List String} {peers peers' : List PeerArgs}
    (h : SaysPeers args peers) (h' : SaysPeers args peers') : peers = peers' := by
  induction h generalizing peers' with
  | nil =>
      cases h'
      rfl
  | cons hid hport h ih =>
      cases h' with
      | cons hid' hport' h' =>
          obtain rfl := Option.some.inj (hid.symm.trans hid')
          obtain rfl := Option.some.inj (hport.symm.trans hport')
          rw [ih h']

lemma Says.unique {argv : List String} {line line' : CommandLine} (h : Says argv line)
    (h' : Says argv line') : line = line' := by
  cases h with
  | intro hport hid hcount hpeers =>
      cases h' with
      | intro hport' hid' hcount' hpeers' =>
          obtain rfl := Option.some.inj (hport.symm.trans hport')
          obtain rfl := Option.some.inj (hid.symm.trans hid')
          rw [hpeers.unique hpeers']

namespace CommandLine

variable (line : CommandLine) (host : Host)

/-- The nodes of the peers. -/
def nodes : List ServerNode :=
  line.peers.mapIdx fun j peer => ⟨host.alloc j, peer.id, peer.ip, peer.port⟩

/-- The metadata of a server that is started with these arguments. -/
def metadata : ServerMetadata :=
  ((line.nodes host).zipIdx.foldl (fun md p => md.addNeighbors p.1 p.2)
    ({ factoryId := line.uniqueId } : ServerMetadata)).initNeighbors host.connects

end CommandLine

/-! ## Reading the arguments -/

section Reading

variable {args : List String} {peers : List PeerArgs} {n : ℕ}

/-- The arguments about the `j`-th peer. -/
def readPeer (args : List String) (j : ℕ) : Option PeerArgs := do
  let id ← atoi (← args[3 * j]?)
  let ip ← args[3 * j + 1]?
  let port ← atoi (← args[3 * j + 2]?)
  some ⟨id, ip, port⟩

lemma SaysPeers.length_eq (h : SaysPeers args peers) : args.length = 3 * peers.length := by
  induction h with
  | nil => rfl
  | cons hid hport h ih =>
      simp only [List.length_cons, ih]
      omega

lemma readPeer_zero {id ip port : String} {peer : PeerArgs} :
    readPeer (id :: ip :: port :: args) 0 = some peer ↔
      atoi id = some peer.id ∧ ip = peer.ip ∧ atoi port = some peer.port := by
  obtain ⟨n, ip', p⟩ := peer
  simp [readPeer, Option.bind_eq_some_iff]
  grind

/-- Reading all peers is following the grammar. -/
lemma mapM_readPeer (hlength : args.length = 3 * n) :
    (List.range n).mapM (readPeer args) = some peers ↔ SaysPeers args peers := by
  induction n generalizing args peers with
  | zero =>
      obtain rfl : args = [] := List.length_eq_zero_iff.1 hlength
      constructor
      · intro h
        obtain rfl : [] = peers := Option.some.inj h
        exact .nil
      · intro h
        cases h
        rfl
  | succ n ih =>
      obtain ⟨id, ip, port, rest, rfl⟩ : ∃ id ip port rest, args = id :: ip :: port :: rest := by
        match args, hlength with
        | id :: ip :: port :: rest, _ => exact ⟨id, ip, port, rest, rfl⟩
      have hrest : rest.length = 3 * n := by
        simp only [List.length_cons] at hlength
        omega
      have htail : (List.map Nat.succ (List.range n)).mapM (readPeer (id :: ip :: port :: rest)) =
          (List.range n).mapM (readPeer rest) := by
        rw [List.mapM_map]
        rfl
      rw [List.range_succ_eq_map, List.mapM_cons, htail]
      simp only [Option.bind_eq_bind, Option.bind_eq_some_iff, Option.pure_def, Option.some.injEq]
      constructor
      · rintro ⟨peer, hpeer, peers, hpeers, rfl⟩
        obtain ⟨hid, rfl, hport⟩ := readPeer_zero.1 hpeer
        exact .cons hid hport ((ih hrest).1 hpeers)
      · intro h
        cases h with
        | cons hid hport h =>
            exact ⟨_, readPeer_zero.2 ⟨hid, rfl, hport⟩, _, (ih hrest).2 h, rfl⟩

/-- The node is made of the arguments. -/
lemma peerNode_eq (host : Host) (argv : List String) (j : ℕ) :
    peerNode host argv j = (readPeer (argv.drop 4) j).map fun peer =>
      ⟨host.alloc j, peer.id, peer.ip, peer.port⟩ := by
  simp only [peerNode, readPeer, List.getElem?_drop, Nat.add_assoc, Option.bind_eq_bind,
    Option.map_bind, Function.comp_def, Option.map_some]

lemma zipIdx_nodes (line : CommandLine) (host : Host) :
    (line.nodes host).zipIdx = (line.peers.zip (List.range line.peers.length)).map fun q =>
      (⟨host.alloc q.2, q.1.id, q.1.ip, q.1.port⟩, q.2) := by
  rw [List.range_eq_range', ← List.zipIdx_eq_zip_range']
  refine List.ext_getElem? fun k => ?_
  simp [CommandLine.nodes, Function.comp_def]

/-- What the loop of `main` does with the arguments of a peer. -/
def addPeer (host : Host) (md : ServerMetadata) (peer : PeerArgs) (j : ℕ) : ServerMetadata :=
  md.addNeighbors ⟨host.alloc j, peer.id, peer.ip, peer.port⟩ j

/-- The loop of `main`. -/
lemma addPeers_eq_some_iff {host : Host} {name portArg idArg countArg : String}
    {md md' : ServerMetadata} (hlength : args.length = 3 * n) :
    addPeers host (name :: portArg :: idArg :: countArg :: args) n md = some md' ↔
      ∃ peers, SaysPeers args peers ∧
        (peers.zip (List.range n)).foldl (fun md q => addPeer host md q.1 q.2) md = md' := by
  have hpass : ∀ (md : ServerMetadata) (j : ℕ),
      ((peerNode host (name :: portArg :: idArg :: countArg :: args) j).map fun node =>
        md.addNeighbors node j) = (readPeer args j).map fun peer => addPeer host md peer j := by
    intro md j
    rw [peerNode_eq, Option.map_map]
    rfl
  simp only [addPeers, Int.toNat_natCast, hpass]
  rw [foldlM_map_eq_mapM, Option.map_eq_some_iff]
  simp only [mapM_readPeer hlength]

/-- What the loop of `main` makes of the peers. -/
lemma metadata_eq_loop (line : CommandLine) (host : Host) :
    line.metadata host = ((line.peers.zip (List.range line.peers.length)).foldl
      (fun md q => addPeer host md q.1 q.2)
      ({ factoryId := line.uniqueId } : ServerMetadata)).initNeighbors host.connects := by
  rw [CommandLine.metadata, zipIdx_nodes, List.foldl_map]
  rfl

end Reading

section Main

variable {host : Host} {line : CommandLine} {port : ℤ} {md : ServerMetadata}

/-- `main` past its first check. -/
lemma serverMain_cons (name : String) {portArg idArg countArg : String} {args : List String} {k : ℕ}
    (hlength : args.length = 3 * k) :
    serverMain host (name :: portArg :: idArg :: countArg :: args) =
      (atoi portArg).bind fun p => (atoi idArg).bind fun n => (atoi countArg).bind fun m =>
        if (k : ℤ) ≠ m then some .refused
        else if host.listens p then
          (addPeers host (name :: portArg :: idArg :: countArg :: args) m { factoryId := n }).map
            fun md => .started p (md.initNeighbors host.connects)
        else some .refused := by
  have hargc : (name :: portArg :: idArg :: countArg :: args).length - 4 = 3 * k := by
    simp only [List.length_cons]
    omega
  unfold serverMain
  rw [if_neg (by simp only [List.length_cons] at hargc ⊢; omega), hargc,
    Nat.mul_div_cancel_left k (by decide)]
  simp only [List.getElem?_cons_succ, List.getElem?_cons_zero, Option.bind_eq_bind,
    Option.bind_some]
  simp only [Option.map_eq_bind, Function.comp_def]

/-- **When `main` starts its threads, and with what.** -/
theorem serverMain_started_iff {argv : List String} :
    serverMain host argv = some (.started port md) ↔
      ∃ line, Says argv line ∧ line.port = port ∧ host.listens port ∧ line.metadata host = md := by
  constructor
  · intro h
    by_cases hshape : argv.length < 4 ∨ (argv.length - 4) % 3 ≠ 0
    · rw [serverMain, if_pos hshape] at h
      cases h
    rw [not_or, not_lt, not_not] at hshape
    obtain ⟨name, portArg, idArg, countArg, args, rfl⟩ : ∃ name portArg idArg countArg args,
        argv = name :: portArg :: idArg :: countArg :: args := by
      match argv, hshape.1 with
      | name :: portArg :: idArg :: countArg :: args, _ =>
          exact ⟨name, portArg, idArg, countArg, args, rfl⟩
    obtain ⟨k, hk⟩ : ∃ k, args.length = 3 * k :=
      ⟨args.length / 3, by simp only [List.length_cons] at hshape; omega⟩
    rw [serverMain_cons name hk] at h
    simp only [Option.bind_eq_some_iff] at h
    obtain ⟨p, hport, n, hid, m, hcount, h⟩ := h
    split at h
    · cases h
    rename_i hm
    obtain rfl := not_not.1 hm
    split at h
    · rename_i hlistens
      rw [Option.map_eq_some_iff] at h
      obtain ⟨md, hloop, hmd⟩ := h
      obtain ⟨rfl, rfl⟩ : p = port ∧ md.initNeighbors host.connects = _ := by simpa using hmd
      obtain ⟨peers, hpeers, rfl⟩ := (addPeers_eq_some_iff hk).1 hloop
      have hcount' : k = peers.length := by
        have hsame := hpeers.length_eq
        omega
      subst hcount'
      exact ⟨⟨p, n, peers⟩, .intro hport hid hcount hpeers, rfl, hlistens, metadata_eq_loop _ _⟩
    · cases h
  · rintro ⟨line, hline, rfl, hlistens, rfl⟩
    cases hline with
    | @intro name portArg idArg countArg args p n peers hport hid hcount hpeers =>
        rw [serverMain_cons name hpeers.length_eq, hport, hid, hcount]
        simp only [Option.bind_some]
        rw [if_neg (not_not.2 rfl), if_pos hlistens, metadata_eq_loop,
          (addPeers_eq_some_iff hpeers.length_eq).2 ⟨peers, hpeers, rfl⟩]
        rfl

end Main

/-! ## Clusters -/

/-- A host on which the nodes are allocated where they are. -/
def hostOf (peers : List ServerNode) (connects : ServerNode → Bool) : Host where
  listens _ := true
  alloc j := (peers[j]?.map ServerNode.addr).getD 0
  connects := connects

section Clusters

lemma map_id_nodes (line : CommandLine) (host : Host) :
    (line.nodes host).map ServerNode.id = line.peers.map PeerArgs.id := by
  refine List.ext_getElem? fun k => ?_
  simp [CommandLine.nodes, Function.comp_def]

lemma metadata_place (line : CommandLine) (host : Host) :
    (line.metadata host).factoryId = line.uniqueId ∧
      (line.metadata host).neighbors = line.nodes host := by
  obtain ⟨index, heq, -⟩ :=
    addNeighbors_foldl (line.nodes host) 0 ({ factoryId := line.uniqueId } : ServerMetadata)
  rw [CommandLine.metadata, heq]
  exact ⟨rfl, List.nil_append _⟩

lemma boot_neighbors (cfg : Config) (connects : ℤ → ServerNode → Bool) (s : ℤ) :
    (bootMetadata cfg connects s).neighbors = cfg.peers s := by
  obtain ⟨index, heq, -⟩ := bootMetadata_eq cfg connects s
  rw [heq]

variable {ι : Type*}

/-- Different ids, and each names those of all the others once. -/
structure Mutual (line : ι → CommandLine) : Prop where
  injective : Function.Injective fun i => (line i).uniqueId
  nodup : ∀ i, ((line i).peers.map PeerArgs.id).Nodup
  mem : ∀ i x, x ∈ (line i).peers.map PeerArgs.id ↔ ∃ j ≠ i, (line j).uniqueId = x

/-- The processes are those of a cluster after start-up. -/
structure IsBoot (md : ι → ServerMetadata) (cfg : Config) (connects : ℤ → ServerNode → Bool) :
    Prop where
  injective : Function.Injective fun i => (md i).factoryId
  mem_ids : ∀ x, x ∈ cfg.ids ↔ ∃ i, (md i).factoryId = x
  boot : ∀ i, md i = bootMetadata cfg connects (md i).factoryId

variable [Fintype ι] {host : ι → Host} {line : ι → CommandLine}

/-- The cluster of processes that name each other. -/
noncomputable def Mutual.config (h : Mutual line) (host : ι → Host) : Config where
  ids := Finset.univ.image fun i => (line i).uniqueId
  peers := Function.extend (fun i => (line i).uniqueId) (fun i => (line i).nodes (host i))
    fun _ => []
  peers_nodup s hs := by
    obtain ⟨i, -, rfl⟩ := Finset.mem_image.1 hs
    rw [h.injective.extend_apply, map_id_nodes]
    exact h.nodup i
  mem_peers s hs x := by
    obtain ⟨i, -, rfl⟩ := Finset.mem_image.1 hs
    rw [h.injective.extend_apply, map_id_nodes, h.mem]
    constructor
    · rintro ⟨j, hne, rfl⟩
      exact ⟨Finset.mem_image_of_mem _ (Finset.mem_univ j), fun heq => hne (h.injective heq)⟩
    · rintro ⟨hx, hne⟩
      obtain ⟨j, -, rfl⟩ := Finset.mem_image.1 hx
      exact ⟨j, fun heq => hne (by rw [heq]), rfl⟩

lemma Mutual.isBoot (h : Mutual line) (host : ι → Host) :
    IsBoot (fun i => (line i).metadata (host i)) (h.config host)
      (Function.extend (fun i => (line i).uniqueId) (fun i => (host i).connects)
        fun _ _ => false) := by
  constructor
  · intro i j heq
    simp only [(metadata_place _ _).1] at heq
    exact h.injective heq
  · intro x
    simp [config, (metadata_place _ _).1]
  · intro i
    rw [(metadata_place _ _).1, bootMetadata, h.injective.extend_apply]
    simp only [config, h.injective.extend_apply]
    rfl

/-- **The processes are a cluster of the model if and only if they have different ids and each
names the ids of all the others once.** -/
theorem config_of_commandLines {argv : ι → List String} {port : ι → ℤ} {md : ι → ServerMetadata}
    (hstart : ∀ i, serverMain (host i) (argv i) = some (.started (port i) (md i))) :
    (∃ cfg connects, IsBoot md cfg connects) ↔
      ∃ line : ι → CommandLine, (∀ i, Says (argv i) (line i)) ∧ Mutual line := by
  constructor
  · rintro ⟨cfg, connects, hboot⟩
    have hlines : ∀ i, ∃ line, Says (argv i) line ∧ line.metadata (host i) = md i := by
      intro i
      obtain ⟨line, hline, -, -, hmd⟩ := serverMain_started_iff.1 (hstart i)
      exact ⟨line, hline, hmd⟩
    choose line hline hmd using hlines
    have hid : ∀ i, (line i).uniqueId = (md i).factoryId := by
      intro i
      rw [← hmd i, (metadata_place _ _).1]
    have hpeers : ∀ i, (line i).peers.map PeerArgs.id =
        (cfg.peers (md i).factoryId).map ServerNode.id := by
      intro i
      rw [← map_id_nodes _ (host i), ← (metadata_place _ _).2, hmd i, hboot.boot i,
        boot_neighbors, ← hboot.boot i]
    have hmem : ∀ i, (md i).factoryId ∈ cfg.ids := fun i => (hboot.mem_ids _).2 ⟨i, rfl⟩
    refine ⟨line, hline, ?_, fun i => ?_, fun i x => ?_⟩
    · intro i j heq
      simp only [hid] at heq
      exact hboot.injective heq
    · rw [hpeers]
      exact cfg.peers_nodup _ (hmem i)
    · rw [hpeers, cfg.mem_peers _ (hmem i), hboot.mem_ids]
      simp only [hid]
      constructor
      · rintro ⟨⟨j, rfl⟩, hne⟩
        exact ⟨j, fun heq => hne (by rw [heq]), rfl⟩
      · rintro ⟨j, hne, rfl⟩
        exact ⟨⟨j, rfl⟩, fun heq => hne (hboot.injective heq)⟩
  · rintro ⟨line, hline, hmutual⟩
    have hmd : md = fun i => (line i).metadata (host i) := by
      funext i
      obtain ⟨line', hline', -, -, hmd⟩ := serverMain_started_iff.1 (hstart i)
      rw [← hmd, hline'.unique (hline i)]
    rw [hmd]
    exact ⟨_, _, hmutual.isBoot host⟩

/-- Two servers, as they are started by hand. -/
def pairLine (second : Bool) : CommandLine :=
  if second then ⟨12345, 1, [⟨0, "10.200.125.71", 12345⟩]⟩
  else ⟨12345, 0, [⟨1, "10.200.125.72", 12345⟩]⟩

def pairArgs (second : Bool) : List String :=
  if second then ["./server", "12345", "1", "1", "0", "10.200.125.71", "12345"]
  else ["./server", "12345", "0", "1", "1", "10.200.125.72", "12345"]

lemma pairLine_grammar (second : Bool) : Says (pairArgs second) (pairLine second) := by
  cases second
  · exact .intro (by decide) (by decide) (by decide) (.cons (by decide) (by decide) .nil)
  · exact .intro (by decide) (by decide) (by decide) (.cons (by decide) (by decide) .nil)

lemma pairLine_mutual : Mutual pairLine where
  injective i j h := by
    cases i <;> cases j <;> simp [pairLine] at h ⊢
  nodup i := by cases i <;> simp [pairLine]
  mem i x := by cases i <;> simp [pairLine, eq_comm]

theorem pair_is_config : ∃ cfg connects, IsBoot
    (fun second => (pairLine second).metadata (hostOf [] fun _ => true)) cfg connects := by
  have hstart : ∀ second, serverMain (hostOf [] fun _ => true) (pairArgs second) =
      some (.started 12345 ((pairLine second).metadata (hostOf [] fun _ => true))) := by
    intro second
    refine serverMain_started_iff.2 ⟨_, pairLine_grammar second, ?_, rfl, rfl⟩
    cases second <;> rfl
  exact (config_of_commandLines hstart).2 ⟨pairLine, pairLine_grammar, pairLine_mutual⟩

end Clusters

/-! ## Printing a command line -/

section Printing

/-- The arguments about a peer. -/
def printPeer (node : ServerNode) : List String :=
  [toString node.id, node.ip, toString node.port]

def printArgs (name : String) (port s : ℤ) (peers : List ServerNode) : List String :=
  name :: toString port :: toString s :: toString (peers.length : ℤ) :: peers.flatMap printPeer

/-- The numbers on the command line of a server are `int`s. -/
structure Printable (port s : ℤ) (peers : List ServerNode) : Prop where
  port : IsInt port
  uniqueId : IsInt s
  numPeers : IsInt (peers.length : ℤ)
  peers : ∀ node ∈ peers, IsInt node.id ∧ IsInt node.port

/-- What a node is made of. -/
def ServerNode.args (node : ServerNode) : PeerArgs := ⟨node.id, node.ip, node.port⟩

lemma saysPeers_print {peers : List ServerNode}
    (h : ∀ node ∈ peers, IsInt node.id ∧ IsInt node.port) :
    SaysPeers (peers.flatMap printPeer) (peers.map ServerNode.args) := by
  induction peers with
  | nil => exact .nil
  | cons node peers ih =>
      obtain ⟨⟨hid, hport⟩, hpeers⟩ := List.forall_mem_cons.1 h
      exact .cons (atoi_toString hid) (atoi_toString hport) (ih hpeers)

lemma says_print {port s : ℤ} {peers : List ServerNode} (h : Printable port s peers)
    (name : String) : Says (printArgs name port s peers) ⟨port, s, peers.map ServerNode.args⟩ := by
  refine .intro (atoi_toString h.port) (atoi_toString h.uniqueId) ?_ (saysPeers_print h.peers)
  rw [List.length_map]
  exact atoi_toString h.numPeers

lemma nodes_print (port s : ℤ) (peers : List ServerNode) (connects : ServerNode → Bool) :
    (CommandLine.mk port s (peers.map ServerNode.args)).nodes (hostOf peers connects) = peers := by
  refine List.ext_getElem? fun k => ?_
  rw [CommandLine.nodes, List.getElem?_mapIdx, List.getElem?_map]
  cases hk : peers[k]? with
  | none => rfl
  | some node => simp [hostOf, hk, ServerNode.args]

/-- **Every cluster of the model comes from command lines.** -/
theorem commandLines_of_config (cfg : Config) (connects : ℤ → ServerNode → Bool) (port : ℤ → ℤ)
    (name : String) (hprintable : ∀ s ∈ cfg.ids, Printable (port s) s (cfg.peers s)) :
    ∀ s ∈ cfg.ids, serverMain (hostOf (cfg.peers s) (connects s))
      (printArgs name (port s) s (cfg.peers s)) =
        some (.started (port s) (bootMetadata cfg connects s)) := by
  intro s hs
  refine serverMain_started_iff.2 ⟨_, says_print (hprintable s hs) name, rfl, rfl, ?_⟩
  rw [CommandLine.metadata, nodes_print]
  rfl

theorem three_from_commandLines :
    serverMain (hostOf (three.peers 1) fun _ => true)
      (printArgs "./server" 12345 1 (three.peers 1)) =
        some (.started 12345 (bootMetadata three (fun _ _ => true) 1)) :=
  commandLines_of_config three (fun _ _ => true) (fun _ => 12345) "./server"
    (fun s hs => by
      have hs' : s = 0 ∨ s = 1 ∨ s = 2 := by simpa [three, Config.mesh] using hs
      rcases hs' with rfl | rfl | rfl <;>
        exact ⟨by decide, by decide, by decide, by decide⟩)
    1 (by decide)

end Printing

end LaptopRaft
