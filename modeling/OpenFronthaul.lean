import OpenFronthaul.BitField
import OpenFronthaul.BitWriter
import OpenFronthaul.Bits
import OpenFronthaul.Bytes
import OpenFronthaul.Carrier
import OpenFronthaul.CommandLine
import OpenFronthaul.Compression
import OpenFronthaul.Config.Basic
import OpenFronthaul.Config.Text
import OpenFronthaul.Direction
import OpenFronthaul.Ecpri.EaxcId
import OpenFronthaul.Ecpri.Header
import OpenFronthaul.Emulation.DistributedUnit
import OpenFronthaul.Emulation.Plan
import OpenFronthaul.Emulation.RadioUnit
import OpenFronthaul.Emulation.Run
import OpenFronthaul.Error
import OpenFronthaul.Extension.Basic
import OpenFronthaul.Extension.Beams
import OpenFronthaul.Extension.Block
import OpenFronthaul.Extension.Buffer
import OpenFronthaul.Extension.Bundles
import OpenFronthaul.Extension.Kind
import OpenFronthaul.Extension.Modulation
import OpenFronthaul.Extension.PrbGroups
import OpenFronthaul.Extension.Precoding
import OpenFronthaul.Extension.Scalar
import OpenFronthaul.Extension.Weights
import OpenFronthaul.Frame.Pattern
import OpenFronthaul.Frame.Rate
import OpenFronthaul.Frame.Structure
import OpenFronthaul.Inventory
import OpenFronthaul.Main
import OpenFronthaul.Memory
import OpenFronthaul.Message.Basic
import OpenFronthaul.Message.Encode
import OpenFronthaul.Message.Header
import OpenFronthaul.Message.SectionWord
import OpenFronthaul.Numerology
import OpenFronthaul.Packet
import OpenFronthaul.PrbMap
import OpenFronthaul.Producer
import OpenFronthaul.Proofs.Ecpri.EaxcId
import OpenFronthaul.Proofs.Extension.Block
import OpenFronthaul.Proofs.Extension.Contents
import OpenFronthaul.Proofs.Extension.Framing
import OpenFronthaul.Proofs.Extension.PackedContents
import OpenFronthaul.Proofs.Extension.Rewriting
import OpenFronthaul.Proofs.Extension.RoundTrip
import OpenFronthaul.Proofs.Frame.Symbols
import OpenFronthaul.Proofs.Link.Lookups
import OpenFronthaul.Proofs.Link.Mirroring
import OpenFronthaul.Proofs.Link.ReferenceSignals
import OpenFronthaul.Proofs.Message.Header
import OpenFronthaul.Proofs.Message.Rewriting
import OpenFronthaul.Proofs.Message.RoundTrip
import OpenFronthaul.Proofs.Message.Section
import OpenFronthaul.Proofs.Producer.Contents
import OpenFronthaul.Proofs.Producer.Failures
import OpenFronthaul.Proofs.Producer.Packets
import OpenFronthaul.Proofs.Receiver.Elements
import OpenFronthaul.Proofs.Receiver.Framing
import OpenFronthaul.Proofs.Receiver.Generations
import OpenFronthaul.Proofs.Receiver.Reading
import OpenFronthaul.Proofs.Receiver.Recording
import OpenFronthaul.Proofs.Receiver.Rotation
import OpenFronthaul.Proofs.Steps
import OpenFronthaul.Proofs.Store.BoundedLists
import OpenFronthaul.Proofs.Store.Buckets
import OpenFronthaul.Proofs.Store.Changes
import OpenFronthaul.Proofs.Wire.Bits
import OpenFronthaul.Proofs.Wire.Bytes
import OpenFronthaul.Receiver
import OpenFronthaul.Section.Basic
import OpenFronthaul.Section.Store
import OpenFronthaul.Section.Tagging
import OpenFronthaul.Timing.Callback
import OpenFronthaul.Timing.Clock
import OpenFronthaul.Timing.Deadline
import OpenFronthaul.Timing.Scheduler
import OpenFronthaul.Toml.DateTime
import OpenFronthaul.Toml.Decimal
import OpenFronthaul.Toml.Digits
import OpenFronthaul.Toml.Document
import OpenFronthaul.Toml.Record
import OpenFronthaul.Toml.Scalar
import OpenFronthaul.Toml.Scanner
import OpenFronthaul.Toml.Value
import OpenFronthaul.Worker
import OpenFronthaul.Proofs.Timing.Buckets
import OpenFronthaul.Proofs.Timing.Deadlines
import OpenFronthaul.Proofs.Timing.Registry
import OpenFronthaul.Proofs.Lockstep
import OpenFronthaul.Proofs.Store.Agreement
import OpenFronthaul.Proofs.Producer.Locality
import OpenFronthaul.Proofs.Receiver.Locality
import OpenFronthaul.Proofs.Timing.Ticks
import OpenFronthaul.Proofs.Emulation.Crew
import OpenFronthaul.Proofs.Emulation.Start
import OpenFronthaul.Proofs.Emulation.Interleaving
import OpenFronthaul.Proofs.Producer.Success
import OpenFronthaul.Proofs.Emulation.Parts
import OpenFronthaul.Proofs.Emulation.Schedule
import OpenFronthaul.Proofs.Emulation.Filling
import OpenFronthaul.Proofs.Emulation.Stock
import OpenFronthaul.Proofs.Emulation.Counting
import OpenFronthaul.Proofs.Emulation.Reception
import OpenFronthaul.Proofs.Config.Valid
import OpenFronthaul.Proofs.Emulation.Totals
import OpenFronthaul.Proofs.Timing.Rounding
import OpenFronthaul.Proofs.Timing.Firing
import OpenFronthaul.Proofs.Timing.Accounting
import OpenFronthaul.Proofs.Store.Contexts
import OpenFronthaul.Proofs.Timing.Spreading
import OpenFronthaul.Proofs.Link.Contexts
import OpenFronthaul.Proofs.Timing.Moments
import OpenFronthaul.Proofs.Producer.Parts
import OpenFronthaul.Proofs.Emulation.Flows
import OpenFronthaul.Proofs.Message.Exactness
import OpenFronthaul.Proofs.Producer.Capacity
import OpenFronthaul.Proofs.Extension.Packing
import OpenFronthaul.Proofs.Extension.VectorAndBundle
import OpenFronthaul.Proofs.Producer.FrameSize
import OpenFronthaul.Proofs.Producer.Holdings
import OpenFronthaul.Proofs.Inventory.Accounts
import OpenFronthaul.Proofs.Extension.Buffer
import OpenFronthaul.Proofs.Message.Stretching
import OpenFronthaul.Proofs.Frame.Queries
import OpenFronthaul.Proofs.Wire.Packing
