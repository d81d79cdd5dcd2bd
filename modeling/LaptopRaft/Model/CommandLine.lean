import LaptopRaft.Model.Cluster
import LaptopRaft.Model.Customer

/-!
# The command lines

`serverMain` is `main` of `ServerMain.cpp`, up to the point where it has built the metadata and
starts the threads.  Its arguments are

    [port #] [unique ID] [# peers] ( [ID] [IP] [port #] ) ...

Which ports can be listened at, where the allocator puts the nodes and which peers accept a
connection are parameters.  `clientMain` is `main` of `ClientMain.cpp`, up to the same point.

`argv` begins with the name of the program.  `none` is undefined behaviour: `atoi` of a number that
is no `int`, and an argument past the end of `argv`.
-/

namespace LaptopRaft

/-! ## `atoi` -/

def isSpace (c : Char) : Bool := c = ' ' || ('\t' ≤ c && c ≤ '\r')

/-- The number the digits at the beginning make up, `0` if there are none. -/
def leadingNumber (cs : List Char) : ℕ := Nat.ofDigitChars 10 (cs.takeWhile Char.isDigit) 0

/-- White space, a sign and digits; what comes behind them is not looked at. -/
def atoi (arg : String) : Option ℤ :=
  let n : ℤ :=
    match arg.toList.dropWhile isSpace with
    | '-' :: cs => -leadingNumber cs
    | '+' :: cs => leadingNumber cs
    | cs => leadingNumber cs
  if IsInt n then some n else none

/-! ## Servers -/

/-- What `main` depends on besides its arguments. -/
structure Host where
  /-- `socket.Init(port)` succeeds. -/
  listens : ℤ → Bool
  /-- Where the node of the `j`-th peer is allocated. -/
  alloc : ℕ → ℕ
  /-- The peer accepts the connection of `InitNeighbors`. -/
  connects : ServerNode → Bool

/-- `main` returns at once, or starts its threads. -/
inductive Start
  | refused
  | started (port : ℤ) (metadata : ServerMetadata)

section ServerMain

variable (host : Host) (argv : List String)

/-- The node of the `j`-th peer, whose arguments begin at `4 + 3 * j`. -/
def peerNode (j : ℕ) : Option ServerNode := do
  let id ← atoi (← argv[4 + 3 * j]?)
  let ip ← argv[4 + 3 * j + 1]?
  let port ← atoi (← argv[4 + 3 * j + 2]?)
  some ⟨host.alloc j, id, ip, port⟩

/-- The loop over the peers. -/
def addPeers (numPeers : ℤ) (md : ServerMetadata) : Option ServerMetadata :=
  (List.range numPeers.toNat).foldlM
    (fun md j => (peerNode host argv j).map fun node => md.addNeighbors node j) md

def serverMain : Option Start :=
  if argv.length < 4 ∨ (argv.length - 4) % 3 ≠ 0 then some .refused
  else do
    let port ← atoi (← argv[1]?)
    let uniqueId ← atoi (← argv[2]?)
    let numPeers ← atoi (← argv[3]?)
    if (((argv.length - 4) / 3 : ℕ) : ℤ) ≠ numPeers then some .refused
    else if host.listens port then do
      let md ← addPeers host argv numPeers { factoryId := uniqueId }
      some (.started port (md.initNeighbors host.connects))
    else some .refused

end ServerMain

/-! ## Customers -/

/-- The threads `main` starts: one for each customer. -/
def clientMain (argv : List String) : Option (List ThreadArgs) :=
  if argv.length < 6 then some []
  else do
    let ip ← argv[1]?
    let port ← atoi (← argv[2]?)
    let numCustomers ← atoi (← argv[3]?)
    let numOrders ← atoi (← argv[4]?)
    let requestType ← atoi (← argv[5]?)
    some ((List.range numCustomers.toNat).map fun (i : ℕ) =>
      ⟨ip, port, i, numOrders, requestType⟩)

end LaptopRaft
