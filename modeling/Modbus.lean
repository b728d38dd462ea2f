import Modbus.Atomicity
import Modbus.Canonical
import Modbus.Capacity
import Modbus.Client.Base
import Modbus.Client.Calls
import Modbus.Client.Dumps
import Modbus.Client.Metrics
import Modbus.Client.Read
import Modbus.Client.Requests
import Modbus.Client.Trailing
import Modbus.Client.Transport
import Modbus.Codewords
import Modbus.Crc
import Modbus.Device
import Modbus.ErrorDetection
import Modbus.Library.ByteBits
import Modbus.Library.Cells
import Modbus.Library.Counting
import Modbus.Library.CrcPolynomial
import Modbus.Library.Independence
import Modbus.Library.Linearization
import Modbus.Library.Machine
import Modbus.Library.PrefixCode
import Modbus.Library.Readings
import Modbus.Library.Refinement
import Modbus.Library.ReflectedCrc
import Modbus.Library.Span
import Modbus.Lrc
import Modbus.Message.Payload
import Modbus.Message.Range
import Modbus.Message.Single
import Modbus.Messages
import Modbus.Objects
import Modbus.Packing
import Modbus.Remote.Clients
import Modbus.Remote.Independence
import Modbus.Remote.Noise
import Modbus.Remote.Operations
import Modbus.Remote.Padding
import Modbus.Remote.Pieces
import Modbus.Remote.Reads
import Modbus.Request.WriteMultiple
import Modbus.Response.Error
import Modbus.Response.ReadMultiple
import Modbus.RtuFrame
import Modbus.Scratch
import Modbus.Sequences
import Modbus.Serialization
import Modbus.Truncation
import Modbus.Udp.Acceptance
import Modbus.Udp.Causes
import Modbus.Udp.Client
import Modbus.Udp.Conservation
import Modbus.Udp.Drain
import Modbus.Udp.EndToEnd
import Modbus.Udp.Exchange
import Modbus.Udp.Failures
import Modbus.Udp.Freshness
import Modbus.Udp.Network
import Modbus.Udp.Operations
import Modbus.Udp.Others
import Modbus.Udp.Sharing
import Modbus.Utils
import Modbus.Values
import Modbus.WellFormed
