import Parley.CommandLine.Session
import Parley.Grid.Coordinator
import Parley.Grid.Worker
import Parley.Main
import Parley.Network.Loop
import Parley.Node
import Parley.Response.Handler
import Parley.Proofs.Grid.Ids
import Parley.Proofs.Message.Restored
import Parley.Proofs.Network.Delivery
import Parley.Proofs.Primes.Fleet
import Parley.Proofs.Primes.Overflow
import Parley.Proofs.Requests.Rollback
import Parley.Proofs.Response.Wakeups
import Parley.Proofs.Wire.Splitting
import Parley.Proofs.Grid.Queue
import Parley.Proofs.Grid.Attempts
import Parley.Proofs.Grid.Resend
import Parley.Proofs.Grid.Crew
import Parley.Proofs.Grid.Results
import Parley.Proofs.Requests.Balance
import Parley.Proofs.Network.Isolation
import Parley.Proofs.Pool.Order
import Parley.Proofs.Network.Closing
import Parley.Proofs.Requests.Strangers
import Parley.Proofs.Chat.Forwarding
import Parley.Proofs.Chat.Membership
import Parley.Proofs.Grid.Vigil
import Parley.Proofs.Grid.Plant
import Parley.Proofs.Message.Canonical
import Parley.Proofs.Message.Cut
import Parley.Proofs.Sync.Agreement
import Parley.Proofs.Network.LastWords
import Parley.Proofs.Node.Quiescence
import Parley.Proofs.Message.Inflated
import Parley.Proofs.Response.Hooks
