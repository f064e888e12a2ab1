import EspNowOnLinux.Lib.StateMachine
import EspNowOnLinux.Lib.Bytes
import EspNowOnLinux.Lib.Framing
import EspNowOnLinux.Lib.AsyncQueue
import EspNowOnLinux.Utility.ReceivingBuffer
import EspNowOnLinux.Messages.Utility
import EspNowOnLinux.Messages.Packets
import EspNowOnLinux.Messages.StartDevice
import EspNowOnLinux.Daemon.SerialPortSocket
import EspNowOnLinux.Daemon.EspnowUartDevice
import EspNowOnLinux.Daemon.TapWrites
import EspNowOnLinux.Daemon.DeviceMessage
import EspNowOnLinux.Daemon.HostRun
import EspNowOnLinux.Firmware.JtagReceive
import EspNowOnLinux.Firmware.PacketPool
import EspNowOnLinux.Firmware.UsbMain
import EspNowOnLinux.Daemon.SerialLine
import EspNowOnLinux.Handshake
import EspNowOnLinux.Firmware.PacketDelivery
import EspNowOnLinux.Firmware.PacketLeaks
import EspNowOnLinux.Bridging
import EspNowOnLinux.Messages.PacketCodecs
import EspNowOnLinux.Daemon.ShortWrites
import EspNowOnLinux.Daemon.MessageLength
import EspNowOnLinux.Daemon.AnyStream
import EspNowOnLinux.Daemon.ReadBoundaries
import EspNowOnLinux.Firmware.UartLine
import EspNowOnLinux.Control.Connection
import EspNowOnLinux.Control.DeviceManager
import EspNowOnLinux.Control.ControlSession
import EspNowOnLinux.Control.ControlServer
import EspNowOnLinux.Control.ResponseWrites
import EspNowOnLinux.Lib.Ownership
import EspNowOnLinux.Utility.EventDispatcher
import EspNowOnLinux.Daemon.DeviceName
import EspNowOnLinux.Firmware.LengthCheck
import EspNowOnLinux.Utility.ConsumeSteps
import EspNowOnLinux.Daemon.ReadLoop
import EspNowOnLinux.Daemon.TapFrames
import EspNowOnLinux.Lib.Memory
import EspNowOnLinux.Firmware.PacketMemory
import EspNowOnLinux.Control.AddRequests
import EspNowOnLinux.Lib.BoundedFifo
import EspNowOnLinux.Utility.BufferFifo
import EspNowOnLinux.Control.DeviceIds
import EspNowOnLinux.Lib.DynamicArray
import EspNowOnLinux.Utility.ReentrantPublish
import EspNowOnLinux.Daemon.ConsoleOutput
import EspNowOnLinux.Messages.ScalarCodecs
import EspNowOnLinux.Messages.NetworkOrder
import EspNowOnLinux.Firmware.UartStream
import EspNowOnLinux.Daemon.SerialOutput
import EspNowOnLinux.Lib.Receiver
import EspNowOnLinux.Daemon.MessageCodec
import EspNowOnLinux.Firmware.AnyInput
import EspNowOnLinux.Daemon.DeviceRuns
import EspNowOnLinux.Network.Node
import EspNowOnLinux.Network.ToHost
import EspNowOnLinux.Network.ToRadio
import EspNowOnLinux.Network.Radio
import EspNowOnLinux.Network.Progress
import EspNowOnLinux.Control.ServerObjects
import EspNowOnLinux.Control.ServerRuns
import EspNowOnLinux.Lib.FailingWrites
import EspNowOnLinux.Daemon.FailedOperations
import EspNowOnLinux.Control.Commands
import EspNowOnLinux.Control.ClientRuns
