import Wlcs.Lib.History
import Wlcs.Lib.Machine
import Wlcs.Lib.Session
import Wlcs.Lib.OrdMap
import Wlcs.Lib.Fifo
import Wlcs.Lib.Barrier
import Wlcs.Lib.Sweep
import Wlcs.Lib.Monitor
import Wlcs.Lib.StdVector
import Wlcs.Lib.Store
import Wlcs.Lib.Memory
import Wlcs.Lib.Placement
import Wlcs.Geometry.Rectangle
import Wlcs.Geometry.LayerLayout
import Wlcs.Client.State
import Wlcs.Client.Pointer
import Wlcs.Client.Touch
import Wlcs.Client.Dispatch
import Wlcs.Client.PointerSteps
import Wlcs.Client.PointerNotifications
import Wlcs.Client.PointerTracking
import Wlcs.Client.TouchTracking
import Wlcs.Client.TouchedWindow
import Wlcs.Client.Conformance
import Wlcs.Client.Buttons
import Wlcs.Client.Reentrant
import Wlcs.Client.Undisturbed
import Wlcs.Client.NotifierVectors
import Wlcs.Client.FrameStack
import Wlcs.Client.OneShot
import Wlcs.Client.Keyboard
import Wlcs.Client.Negotiation
import Wlcs.Client.Output
import Wlcs.Client.Globals
import Wlcs.Client.Connection
import Wlcs.Client.OutputUpdates
import Wlcs.Client.OutputIndex
import Wlcs.Client.XdgOutput
import Wlcs.Client.ForeignToplevel
import Wlcs.Client.ToplevelState
import Wlcs.Client.DataControl
import Wlcs.Client.CaptureSession
import Wlcs.Client.Dmabuf
import Wlcs.Client.Seat
import Wlcs.Client.DispatchUntil
import Wlcs.Proxy.Handle
import Wlcs.Proxy.Listeners
import Wlcs.Surface.FrameCallbacks
import Wlcs.Surface.Lifecycle
import Wlcs.Surface.Ownership
import Wlcs.Surface.Buffer
import Wlcs.Surface.ShmBuffer
import Wlcs.Surface.Outputs
import Wlcs.Surface.ContentUpdates
import Wlcs.Surface.Subsurface
import Wlcs.Surface.ShellSurface
import Wlcs.Surface.ShellConformance
import Wlcs.Surface.Positioner
import Wlcs.Surface.PopupSuite
import Wlcs.ThreadProxy.Message
import Wlcs.ThreadProxy.Serialisation
import Wlcs.ThreadProxy.System
import Wlcs.ThreadProxy.Steps
import Wlcs.ThreadProxy.Pipeline
import Wlcs.ThreadProxy.Failure
import Wlcs.ThreadProxy.Faithful
import Wlcs.ThreadProxy.Teardown
import Wlcs.Runner.Listener
import Wlcs.Runner.CommandLine
import Wlcs.Runner.ExitStatus
import Wlcs.Runner.Masking
import Wlcs.Runner.Verdicts
import Wlcs.Server.Devices
import Wlcs.Server.Wiring
import Wlcs.Server.Routing
import Wlcs.Server.OwnHooks
import Wlcs.Server.ClientSocket
import Wlcs.Input.Method
import Wlcs.Input.Refinement
import Wlcs.Input.Regions
import Wlcs.Integration.Executor
import Wlcs.Integration.WorkQueue
import Wlcs.Integration.InputEvents
import Wlcs.Integration.ResourceMapper
import Wlcs.Integration.MovedWindow
