import TpmLink.Bus.Window
import TpmLink.Connection
import TpmLink.Proofs.Wire.RoundTrip
import TpmLink.Proofs.Wire.Extent
import TpmLink.Proofs.CommandBuffer.Order
import TpmLink.Proofs.Fifo.Order
import TpmLink.Proofs.Transport.Limits
import TpmLink.Proofs.Client.Calls
import TpmLink.Proofs.Bus.Memory
import TpmLink.Proofs.Fifo.Loops
import TpmLink.Proofs.Fifo.Metering
import TpmLink.Proofs.Fifo.Pacing
import TpmLink.Proofs.Bus.Lapses
import TpmLink.Proofs.CommandBuffer.Handshake
import TpmLink.Proofs.CommandBuffer.Retrying
import TpmLink.Proofs.CommandBuffer.Cancelling
import TpmLink.Proofs.Wire.Canonicity
import TpmLink.Proofs.Wire.Truncation
import TpmLink.Proofs.Wire.Spoiling
import TpmLink.Proofs.Firmware.Table
import TpmLink.Proofs.Client.Opening
import TpmLink.Proofs.Wire.Sessions
import TpmLink.Proofs.Wait.Attempts
import TpmLink.Proofs.Wait.Rounds
import TpmLink.Proofs.Wait.Probes
import TpmLink.Proofs.Wire.Headers
import TpmLink.Proofs.Bus.Widths
