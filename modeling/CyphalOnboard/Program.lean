import CyphalOnboard.NodeFactory
import CyphalOnboard.NodeSafety
import CyphalOnboard.Startup

namespace CyphalOnboard

open OpenCyphal

variable {C : Canard} {R : ℕ}

/-- What an iteration of the loop finds outside: the clock, and for each node what its tasks find,
the answers of its transceivers and the clock while it handles transfers. -/
structure IterationEnv (R : ℕ) where
  monotonicTime : UInt64
  tasks : Bool → ℕ → TaskEnv
  answers : Bool → Answers R
  clock : Bool → Fin R → UInt64

namespace Main

/-- The factory with its interfaces. -/
def factory : NodeFactory :=
  (((NodeFactory.construct []).addSocketCanInterface "vcan0").addSocketCanInterface
    "vcan1").addSocketCanInterface "vcan2"

def startNodes (startedAt : UInt64) : List (Bool × NodeCommand SocketCANTransceiver R) :=
  [(true, .startNode startedAt), (false, .startNode startedAt)]

/-- The body of the loop. -/
def iteration (env : IterationEnv R) : List (Bool × NodeCommand SocketCANTransceiver R) :=
  [(true, .checkScheduler (env.tasks true) env.monotonicTime),
    (false, .checkScheduler (env.tasks false) env.monotonicTime),
    (true, .handleTxRxQueues (env.answers true) (env.clock true) env.monotonicTime),
    (false, .handleTxRxQueues (env.answers false) (env.clock false) env.monotonicTime)]

end Main

/-- The process has not ended in any of its nodes. -/
def AllRun (net : Bool → Node C SocketCANTransceiver R) : Prop :=
  ∀ n, (net n).host.base.crashed = none

instance : DecidablePred (AllRun (C := C) (R := R)) := fun net =>
  decidable_of_iff ((net true).host.base.crashed = none ∧ (net false).host.base.crashed = none)
    ⟨fun h n => by cases n; exact h.2; exact h.1, fun h => ⟨h true, h false⟩⟩

/-- The statements of a process, until it ends in one of them. -/
def runProcess (net : Bool → Node C SocketCANTransceiver R) :
    List (Bool × NodeCommand SocketCANTransceiver R) → Bool → Node C SocketCANTransceiver R
  | [] => net
  | x :: commands =>
    if AllRun net then runProcess (Function.update net x.1 (x.2.run (net x.1))) commands else net

/-- `main` up to the end of the given iterations. -/
def Main.run (net : Bool → Node C SocketCANTransceiver R) (startedAt : UInt64)
    (iterations : List (IterationEnv R)) : Bool → Node C SocketCANTransceiver R :=
  runProcess net (Main.startNodes startedAt ++ iterations.flatMap Main.iteration)

end CyphalOnboard
