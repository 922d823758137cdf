import SmartFactory.Lib.Run
import SmartFactory.Lib.SlotTable
import SmartFactory.Lib.ExchangeSort
import SmartFactory.Lib.Keyed
import SmartFactory.Lib.ThreadPool
import SmartFactory.Proofs.Overrides
import SmartFactory.Proofs.Agreement
import SmartFactory.Proofs.Capacity
import SmartFactory.Proofs.Contexts
import SmartFactory.Proofs.Restart
import SmartFactory.Proofs.Bridge.StopChannel
import SmartFactory.Proofs.Bridge.Clients
import SmartFactory.Proofs.Bridge.Frames
import SmartFactory.Proofs.Bridge.LostConnection
import SmartFactory.Proofs.Growth
import SmartFactory.Proofs.Bridge.Representation
import SmartFactory.Proofs.Bridge.ConfigFile
import SmartFactory.Server.Http
import SmartFactory.Server.System
import SmartFactory.Server.PostBody
import SmartFactory.Proofs.Requests
import SmartFactory.Proofs.Durability
import SmartFactory.Proofs.Listing
import SmartFactory.Lib.Forest
import SmartFactory.Lib.Paths
import SmartFactory.Proofs.Hierarchy
import SmartFactory.Proofs.SwitchWrites
import SmartFactory.Proofs.SwitchAgreement
import SmartFactory.Proofs.SwitchOff
import SmartFactory.Lib.MessagePack
import SmartFactory.Lib.MessagePackWriting
import SmartFactory.Lib.MessagePackTally
import SmartFactory.Bridge.Frame
import SmartFactory.Proofs.Bridge.TypeCodes
import SmartFactory.Proofs.Bridge.Panics
import SmartFactory.Bridge.BridgeEngine
import SmartFactory.Proofs.Bridge.FrameBytes
import SmartFactory.Proofs.Bridge.WireFormat
import SmartFactory.Proofs.Events
import SmartFactory.Proofs.Bridge.Integers
import SmartFactory.Proofs.PostBody
import SmartFactory.Proofs.StaticFiles
import SmartFactory.Proofs.SwitchPaths
import SmartFactory.Proofs.Locking
import SmartFactory.Proofs.BuildOrder
import SmartFactory.Proofs.Stored
import SmartFactory.Proofs.Bridge.NodeIds
import SmartFactory.Proofs.NodeOrder
import SmartFactory.Proofs.Bridge.NodeIdTexts
import SmartFactory.Proofs.Bridge.ConfigFormat
import SmartFactory.TcpBridge.Clients
import SmartFactory.Lib.MessagePackStream
import SmartFactory.Proofs.TcpBridge.Clients
import SmartFactory.Proofs.TcpBridge.Frames
import SmartFactory.Proofs.TcpBridge.Readiness
import SmartFactory.Proofs.TcpBridge.Timing
import SmartFactory.Bridge.OpcUaBrowser
import SmartFactory.Lib.Walks
import SmartFactory.Proofs.Bridge.Browsing
import SmartFactory.Lib.Pacing
import SmartFactory.Proofs.TcpBridge.Sequence
import SmartFactory.Plant.System
import SmartFactory.Proofs.Plant.Sampling
import SmartFactory.Proofs.Plant.Discovery
import SmartFactory.Lib.Subscription
import SmartFactory.Gui.Engine
import SmartFactory.Gui.NodeSelection
import SmartFactory.Gui.Window
import SmartFactory.Proofs.Gui.Engine
import SmartFactory.Proofs.Gui.Window
import SmartFactory.Proofs.Gui.NodeSelection
import SmartFactory.Proofs.Gui.NodeTexts
import SmartFactory.Proofs.Gui.Configuration
import SmartFactory.Lib.Fairness
import SmartFactory.Proofs.Bridge.WaitGroup
import SmartFactory.Proofs.Bridge.Shutdown
import SmartFactory.Proofs.Bridge.Streaming
import SmartFactory.Lib.Preservation
import SmartFactory.Proofs.Typing
import SmartFactory.Proofs.Plant.SameFrames
import SmartFactory.Server.Uploads
import SmartFactory.Proofs.Uploads
import SmartFactory.Bridge.Browse
import SmartFactory.Proofs.Lifecycle
import SmartFactory.Proofs.Plant.Picking
import SmartFactory.Server.Lifecycle
