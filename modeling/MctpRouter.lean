import MctpRouter.Basic
import MctpRouter.Packet
import MctpRouter.Send
import MctpRouter.PortTasks
import MctpRouter.Stack
import MctpRouter.Listeners
import MctpRouter.Router
import MctpRouter.System
import MctpRouter.Invariants
import MctpRouter.Preservation
import MctpRouter.Guarantees
import MctpRouter.ReqChannel
import MctpRouter.PortQueue
import MctpRouter.Safety
import MctpRouter.Delivery
import MctpRouter.PortProgress
import MctpRouter.Sequential
