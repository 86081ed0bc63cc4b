import QboxPlatform.Atu.Dmi
import QboxPlatform.Atu.Exactness
import QboxPlatform.Atu.Invalidate
import QboxPlatform.Atu.Registers
import QboxPlatform.Atu.Translate
import QboxPlatform.Cc3xx.Access
import QboxPlatform.Cc3xx.Aes
import QboxPlatform.Cc3xx.AesInverse
import QboxPlatform.Cc3xx.AesTransfer
import QboxPlatform.Cc3xx.Cmac
import QboxPlatform.Cc3xx.CmacTransfer
import QboxPlatform.Cc3xx.Compression
import QboxPlatform.Cc3xx.Core
import QboxPlatform.Cc3xx.CtrTransfer
import QboxPlatform.Cc3xx.Digest
import QboxPlatform.Cc3xx.DmaInput
import QboxPlatform.Cc3xx.DmiCache
import QboxPlatform.Cc3xx.EcbTransfer
import QboxPlatform.Cc3xx.Engines
import QboxPlatform.Cc3xx.HashContext
import QboxPlatform.Cc3xx.HashTransfer
import QboxPlatform.Cc3xx.Modulus
import QboxPlatform.Cc3xx.Pka
import QboxPlatform.Cc3xx.PkaArithmetic
import QboxPlatform.Cc3xx.PkaExact
import QboxPlatform.Cc3xx.PkaFrame
import QboxPlatform.Cc3xx.PkaImmediate
import QboxPlatform.Cc3xx.PkaMeaning
import QboxPlatform.Cc3xx.PkaModulus
import QboxPlatform.Cc3xx.PkaRounds
import QboxPlatform.Cc3xx.PkaWindows
import QboxPlatform.Cc3xx.Sha256
import QboxPlatform.Dma350.Burst
import QboxPlatform.Dma350.Channel
import QboxPlatform.Dma350.Command
import QboxPlatform.Dma350.Destination
import QboxPlatform.Foundation.Attempt
import QboxPlatform.Foundation.Bezout
import QboxPlatform.Foundation.BigEndian
import QboxPlatform.Foundation.BlockStream
import QboxPlatform.Foundation.Bus
import QboxPlatform.Foundation.Bytes
import QboxPlatform.Foundation.Checked
import QboxPlatform.Foundation.Checksum
import QboxPlatform.Foundation.ChunkedCopy
import QboxPlatform.Foundation.Cmac
import QboxPlatform.Foundation.Codebook
import QboxPlatform.Foundation.Copies
import QboxPlatform.Foundation.CounterMode
import QboxPlatform.Foundation.Ecdsa
import QboxPlatform.Foundation.Event
import QboxPlatform.Foundation.Handshake
import QboxPlatform.Foundation.HashTree
import QboxPlatform.Foundation.Loop
import QboxPlatform.Foundation.Mailboxes
import QboxPlatform.Foundation.Memo
import QboxPlatform.Foundation.OneShot
import QboxPlatform.Foundation.OrderedMap
import QboxPlatform.Foundation.Pratt
import QboxPlatform.Foundation.Ranges
import QboxPlatform.Foundation.Ring
import QboxPlatform.Foundation.Run
import QboxPlatform.Foundation.Serving
import QboxPlatform.Foundation.Sha256
import QboxPlatform.Foundation.ShortWeierstrass
import QboxPlatform.Foundation.Since
import QboxPlatform.Foundation.WeightedLadder
import QboxPlatform.Foundation.Words
import QboxPlatform.HostGtimer.Count
import QboxPlatform.HostGtimer.Gtimer
import QboxPlatform.HostPpu.PowerOnReset
import QboxPlatform.HostPpu.Ppu
import QboxPlatform.HostPpu.RegisterPort
import QboxPlatform.Mhu.Announcement
import QboxPlatform.Mhu.Bridge
import QboxPlatform.Mhu.Coherence
import QboxPlatform.Mhu.Completions
import QboxPlatform.Mhu.Device
import QboxPlatform.Mhu.Exchange
import QboxPlatform.Mhu.Frame
import QboxPlatform.Mhu.Interrupt
import QboxPlatform.Mhu.Mailbox
import QboxPlatform.Mhu.Power
import QboxPlatform.Mhu.PowerReadBack
import QboxPlatform.Mhu.PowerReset
import QboxPlatform.Mhu.Psa.Accuracy
import QboxPlatform.Mhu.Psa.Atomic
import QboxPlatform.Mhu.Psa.CheckedParse
import QboxPlatform.Mhu.Psa.Delivery
import QboxPlatform.Mhu.Psa.Framing
import QboxPlatform.Mhu.Psa.MeasuredBoot
import QboxPlatform.Mhu.Psa.Outputs
import QboxPlatform.Mhu.Psa.Parse
import QboxPlatform.Mhu.Psa.Refinement
import QboxPlatform.Mhu.Psa.Request
import QboxPlatform.Mhu.Psa.RoundTrip
import QboxPlatform.Mhu.Psa.Service
import QboxPlatform.Mhu.Psa.Storage
import QboxPlatform.Mhu.Psa.Wire
import QboxPlatform.Mhu.Rings
import QboxPlatform.Mhu.Rpmsg
import QboxPlatform.Mhu.Scmi
import QboxPlatform.Mhu.ScmiSlots
import QboxPlatform.Mhu.Step
import QboxPlatform.Mhu.Transport
import QboxPlatform.Mmu720ae.Core
import QboxPlatform.Mmu720ae.Device
import QboxPlatform.Mmu720ae.EventQueue
import QboxPlatform.Mmu720ae.Interrupt
import QboxPlatform.Mmu720ae.Isolation
import QboxPlatform.Mmu720ae.Protected
import QboxPlatform.Mmu720ae.Registers
import QboxPlatform.ResetFanout.Edges
import QboxPlatform.RseCpuAccel.Accel
import QboxPlatform.RseCpuAccel.Bl2
import QboxPlatform.RseCpuAccel.Calls
import QboxPlatform.RseCpuAccel.Chunks
import QboxPlatform.RseCpuAccel.Context
import QboxPlatform.RseCpuAccel.Fallback
import QboxPlatform.RseCpuAccel.Hotpath
import QboxPlatform.RseCpuAccel.Keys
import QboxPlatform.RseCpuAccel.Loads
import QboxPlatform.RseCpuAccel.McubootImage
import QboxPlatform.RseCpuAccel.PcEntry
import QboxPlatform.RseCpuAccel.Routines
import QboxPlatform.RseCpuAccel.Signatures
import QboxPlatform.RseKmu.HardwareKeys
import QboxPlatform.RseKmu.Provisioning
import QboxPlatform.RseKmu.Registers
import QboxPlatform.RseLcm.Lifecycle
import QboxPlatform.RseLcm.Otp
import QboxPlatform.RseLcm.Persistence
import QboxPlatform.RseLcm.Registers
import QboxPlatform.RseLmsAccel.Incomparable
import QboxPlatform.RseLmsAccel.Lms
import QboxPlatform.RseLmsAccel.LmsCompleteness
import QboxPlatform.RseLmsAccel.LmsScheme
import QboxPlatform.RseLmsAccel.LmsSoundness
import QboxPlatform.RseLmsAccel.Sha256
import QboxPlatform.RseP256Ecdsa.Acceptance
import QboxPlatform.RseP256Ecdsa.Completeness
import QboxPlatform.RseP256Ecdsa.Curve
import QboxPlatform.RseP256Ecdsa.Der
import QboxPlatform.RseP256Ecdsa.DerFields
import QboxPlatform.RseP256Ecdsa.DerSignature
import QboxPlatform.RseP256Ecdsa.Group
import QboxPlatform.RseP256Ecdsa.PointArithmetic
import QboxPlatform.RseP256Ecdsa.Primes
import QboxPlatform.RseP256Ecdsa.PublicKey
import QboxPlatform.RseP256Ecdsa.Verify
import QboxPlatform.RseProtectionCtrl.Lock
import QboxPlatform.RseProtectionCtrl.Registers
import QboxPlatform.StrataFlash.Accesses
import QboxPlatform.StrataFlash.Backing
import QboxPlatform.StrataFlash.BufferProgram
import QboxPlatform.StrataFlash.Checked
import QboxPlatform.StrataFlash.Chip
import QboxPlatform.StrataFlash.Contents
import QboxPlatform.StrataFlash.DirectAccess
import QboxPlatform.StrataFlash.DmiRanges
import QboxPlatform.StrataFlash.Driver
import QboxPlatform.StrataFlash.Flash
import QboxPlatform.StrataFlash.FlashArray
import QboxPlatform.StrataFlash.Instrumentation
import QboxPlatform.StrataFlash.Safety
import QboxPlatform.StrataFlash.SectorMap
import QboxPlatform.StrataFlash.Step
import QboxPlatform.StrataFlash.Stored
import QboxPlatform.StrataFlash.Write
import QboxPlatform.StrataFlash.WriteBack
import QboxPlatform.Tlm
import QboxPlatform.Zena.Fmu
import QboxPlatform.Zena.Lines
import QboxPlatform.Zena.Ports
import QboxPlatform.Zena.SafetyState
import QboxPlatform.Zena.Ssu
import QboxPlatform.Zena.SysKey
