import LaptopRaft.Framework.TransitionSystem
import LaptopRaft.Framework.Loop
import LaptopRaft.Framework.LogMatching
import LaptopRaft.Framework.Quorum
import LaptopRaft.Framework.Commitment
import LaptopRaft.Framework.WaitsFor
import LaptopRaft.Framework.CatchUp
import LaptopRaft.Framework.Observer
import LaptopRaft.Framework.Framing
import LaptopRaft.Framework.WorkQueue
import LaptopRaft.Framework.Reader
import LaptopRaft.Framework.Buffer
import LaptopRaft.Framework.Transfer
import LaptopRaft.Framework.NumbersAndDots
import LaptopRaft.Model.Messages
import LaptopRaft.Model.Metadata
import LaptopRaft.Model.Cluster
import LaptopRaft.Model.Scenario
import LaptopRaft.Model.Customer
import LaptopRaft.Properties.Metadata
import LaptopRaft.Properties.Steps
import LaptopRaft.Properties.WellFormed
import LaptopRaft.Properties.Replay
import LaptopRaft.Properties.Connections
import LaptopRaft.Properties.Deadlock
import LaptopRaft.Properties.Exchange
import LaptopRaft.Election.Terms
import LaptopRaft.Election.Votes
import LaptopRaft.Election.Safety
import LaptopRaft.Election.Counted
import LaptopRaft.Election.Roles
import LaptopRaft.Election.Refusals
import LaptopRaft.Replication.Leadership
import LaptopRaft.Replication.Matching
import LaptopRaft.Replication.Acks
import LaptopRaft.Replication.Agreement
import LaptopRaft.Replication.History
import LaptopRaft.Replication.Completeness
import LaptopRaft.Replication.Quorums
import LaptopRaft.Replication.Convergence
import LaptopRaft.Replication.Call
import LaptopRaft.Replication.Termination
import LaptopRaft.Replication.Recovery
import LaptopRaft.Replication.Indices
import LaptopRaft.Replication.TermOrder
import LaptopRaft.Replication.Follower
import LaptopRaft.Replication.CommitIndex
import LaptopRaft.Replication.Returns
import LaptopRaft.Replication.Deposed
import LaptopRaft.Replication.PeerOrder
import LaptopRaft.Service.Journal
import LaptopRaft.Service.Order
import LaptopRaft.Service.Acknowledged
import LaptopRaft.Service.Handshake
import LaptopRaft.Service.Ledger
import LaptopRaft.Service.Redirect
import LaptopRaft.Wire.Layouts
import LaptopRaft.Wire.Connection
import LaptopRaft.Wire.Flow
import LaptopRaft.Wire.Rpcs
import LaptopRaft.Wire.CutOff
import LaptopRaft.Wire.Address
import LaptopRaft.Framework.Replicas
import LaptopRaft.Service.Reads
import LaptopRaft.Service.Provenance
import LaptopRaft.Framework.Monitor
import LaptopRaft.Service.Dispatch
import LaptopRaft.Framework.Poll
import LaptopRaft.Election.Ballot
import LaptopRaft.Election.Heartbeats
import LaptopRaft.Replication.Progress
import LaptopRaft.Service.Backlog
import LaptopRaft.Properties.Reach
import LaptopRaft.Service.Unheard
import LaptopRaft.Election.Eligible
import LaptopRaft.Election.Standoff
import LaptopRaft.Model.CommandLine
import LaptopRaft.Properties.CommandLine
import LaptopRaft.Service.Session
import LaptopRaft.Service.Replies
