import SerialBridge.Main
import SerialBridge.Peripheral.Scripted
import SerialBridge.Proofs.Inbound.Order
import SerialBridge.Proofs.Link.FlushBarrier
import SerialBridge.Engine
import SerialBridge.Proofs.Outbound.Failures
import SerialBridge.Proofs.Checked.Queue
import SerialBridge.Proofs.Checked.Halves
import SerialBridge.Proofs.Checked.Engine
import SerialBridge.Proofs.Checked.Advertisement
import SerialBridge.Proofs.Link.Pieces
import SerialBridge.Proofs.Bridge.Turns
import SerialBridge.Proofs.Bridge.Rounds
import SerialBridge.Proofs.Engine.Requests
import SerialBridge.Proofs.Opening.Attempts
import SerialBridge.Proofs.Peripheral.Loopback
import SerialBridge.Proofs.Link.Drain
import SerialBridge.Proofs.Link.Smooth
import SerialBridge.Proofs.Bridge.RoundTrip
import SerialBridge.Proofs.Engine.Directions
import SerialBridge.Proofs.Engine.Growth
import SerialBridge.Proofs.Outbound.Bursts
import SerialBridge.Callers
import SerialBridge.Proofs.Bridge.Callers
import SerialBridge.Proofs.Bridge.Closing
import SerialBridge.Proofs.Inbound.Waiting
import SerialBridge.Proofs.Queue.Memory
import SerialBridge.Proofs.Advertisement.Marks
import SerialBridge.Proofs.Advertisement.Structures
import SerialBridge.Proofs.Advertisement.FirstGeneration
import SerialBridge.Proofs.Advertisement.SecondGeneration
import SerialBridge.Proofs.Advertisement.Order
import SerialBridge.Proofs.Cli.Advertisements
import SerialBridge.Proofs.Bridge.Carrying
import SerialBridge.Proofs.Cli.EchoThreads
import SerialBridge.Proofs.Cli.EchoTest
import SerialBridge.Proofs.Engine.Memory
