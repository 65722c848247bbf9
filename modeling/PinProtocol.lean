import PinProtocol.Driver.Operations
import PinProtocol.Firmware.Mainloop
import PinProtocol.Common.MaskWalk
import PinProtocol.Common.FieldLists
import PinProtocol.Common.FieldExactness
import PinProtocol.Common.PacketCodec
import PinProtocol.Common.Transport
import PinProtocol.Common.Checksum
import PinProtocol.Common.Receiving
import PinProtocol.Common.Sending
import PinProtocol.Firmware.Handlers
import PinProtocol.Driver.Requests
import PinProtocol.System.DeviceLink
import PinProtocol.System.PinOperations
import PinProtocol.Control.History
import PinProtocol.Control.Lasso
import PinProtocol.Firmware.Init
import PinProtocol.System.Registers
import PinProtocol.System.MaskOperations
import PinProtocol.System.MaskedTypes
import PinProtocol.System.MaskedValues
import PinProtocol.Common.FailsafeStream
import PinProtocol.Common.FailsafeCodec
import PinProtocol.Common.Framing
import PinProtocol.Firmware.Uart
import PinProtocol.Firmware.FailsafeHandlers
import PinProtocol.Firmware.FailsafeSizes
import PinProtocol.Firmware.Dispatch
import PinProtocol.Firmware.Acceptance
import PinProtocol.Firmware.Invariant
import PinProtocol.Firmware.Corruption
import PinProtocol.System.Capabilities
import PinProtocol.System.ByteCounts
import PinProtocol.System.Discipline
import PinProtocol.System.ReplyIds
import PinProtocol.System.Coherence
import PinProtocol.System.FailsafeMirror
import PinProtocol.System.RequestSizes
import PinProtocol.System.FailsafeQueries
import PinProtocol.System.Queries
import PinProtocol.System.Errors
import PinProtocol.Common.MaskedPayload
import PinProtocol.Common.WriteOrder
import PinProtocol.Control.ByteRuns
import PinProtocol.Common.FailsafeTables
import PinProtocol.Common.PinLoops
import PinProtocol.Control.Transitions
import PinProtocol.System.Client
import PinProtocol.System.Session
import PinProtocol.Control.Programs
import PinProtocol.Control.Assign
import PinProtocol.System.Board
import PinProtocol.System.BoardCalls
import PinProtocol.System.BoardSession
import PinProtocol.System.Buffers
import PinProtocol.System.Noise
import PinProtocol.Common.Resources
import PinProtocol.Firmware.Memory
import PinProtocol.Control.Cells
import PinProtocol.System.Footprints
import PinProtocol.System.Lifecycle
import PinProtocol.System.Memory
import PinProtocol.Firmware.Embedded
