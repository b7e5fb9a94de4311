import DpuCycles.Cycles
import DpuCycles.Descriptor.JobLayout
import DpuCycles.Descriptor.OneHot
import DpuCycles.Descriptor.Schema
import DpuCycles.Descriptor.Writing
import DpuCycles.Device
import DpuCycles.Element
import DpuCycles.Enumerated
import DpuCycles.Estimate.ClosedForm
import DpuCycles.Estimate.CostModel
import DpuCycles.Estimate.Ideal
import DpuCycles.Estimate.Predictor
import DpuCycles.Estimate.SkippedWork
import DpuCycles.Estimate.TransferCycles
import DpuCycles.Execution
import DpuCycles.Hardware
import DpuCycles.Json.Numeral
import DpuCycles.Json.Reader
import DpuCycles.Json.Value
import DpuCycles.Json.Writer
import DpuCycles.Legality.Admission
import DpuCycles.Legality.Capability
import DpuCycles.Legality.Family
import DpuCycles.Legality.Finding
import DpuCycles.Legality.Footprint
import DpuCycles.Legality.Job
import DpuCycles.Legality.Rules
import DpuCycles.Network.Context
import DpuCycles.Network.Draft
import DpuCycles.Network.Kernel
import DpuCycles.Network.KernelKind
import DpuCycles.Network.Runner
import DpuCycles.Network.TensorFile
import DpuCycles.Network.Trained
import DpuCycles.Network.Version
import DpuCycles.Number.Bytes
import DpuCycles.Number.Half
import DpuCycles.Number.Interchange
import DpuCycles.Number.Multiple
import DpuCycles.Number.Rising
import DpuCycles.Number.Root
import DpuCycles.Number.Rounded
import DpuCycles.Number.Shortest
import DpuCycles.Number.Single
import DpuCycles.Operation
import DpuCycles.Proofs.Descriptor.Admitted
import DpuCycles.Proofs.Descriptor.Encoding
import DpuCycles.Proofs.Descriptor.Slots
import DpuCycles.Proofs.Estimate.Aliases
import DpuCycles.Proofs.Estimate.Batch
import DpuCycles.Proofs.Estimate.Channels
import DpuCycles.Proofs.Estimate.HeldContexts
import DpuCycles.Proofs.Estimate.IdealWork
import DpuCycles.Proofs.Estimate.Scalars
import DpuCycles.Proofs.Estimate.SkippedWork
import DpuCycles.Proofs.Estimate.Sums
import DpuCycles.Proofs.Estimate.Transfers
import DpuCycles.Proofs.Estimate.Variants
import DpuCycles.Proofs.Json.Counts
import DpuCycles.Proofs.Json.Fields
import DpuCycles.Proofs.Json.RoundTrip
import DpuCycles.Proofs.Json.Tokens
import DpuCycles.Proofs.Legality.Admission
import DpuCycles.Proofs.Legality.Aliases
import DpuCycles.Proofs.Legality.CanonicalForm
import DpuCycles.Proofs.Legality.ExactMemory
import DpuCycles.Proofs.Legality.Recut
import DpuCycles.Proofs.Legality.Rulebook
import DpuCycles.Proofs.Legality.Shrinking
import DpuCycles.Proofs.Legality.Sparsity
import DpuCycles.Proofs.Network.Accesses
import DpuCycles.Proofs.Network.Contexts
import DpuCycles.Proofs.Network.Drafts
import DpuCycles.Proofs.Network.Files
import DpuCycles.Proofs.Network.Inference
import DpuCycles.Proofs.Network.Loading
import DpuCycles.Proofs.Network.Rows
import DpuCycles.Proofs.Network.Runs
import DpuCycles.Proofs.Network.Scratch
import DpuCycles.Proofs.Network.Tensors
import DpuCycles.Proofs.Network.Texts
import DpuCycles.Proofs.Number.Halves
import DpuCycles.Proofs.Number.Rounding
import DpuCycles.Proofs.Split.Aliases
import DpuCycles.Proofs.Split.Breadth
import DpuCycles.Proofs.Split.Charges
import DpuCycles.Proofs.Split.Counts
import DpuCycles.Proofs.Split.Domination
import DpuCycles.Proofs.Split.Exclusion
import DpuCycles.Proofs.Split.Extents
import DpuCycles.Proofs.Split.Factorizations
import DpuCycles.Proofs.Split.Halvings
import DpuCycles.Proofs.Split.LeastInput
import DpuCycles.Proofs.Split.Loads
import DpuCycles.Proofs.Split.Makespan
import DpuCycles.Proofs.Split.Pieces
import DpuCycles.Proofs.Split.Placements
import DpuCycles.Proofs.Split.Pricing
import DpuCycles.Proofs.Split.Reach
import DpuCycles.Proofs.Split.Refusals
import DpuCycles.Proofs.Split.Selection
import DpuCycles.Proofs.Split.Shares
import DpuCycles.Proofs.Split.Strategies
import DpuCycles.Proofs.Split.Tiling
import DpuCycles.Proofs.Split.Traffic
import DpuCycles.Proofs.Split.Whole
import DpuCycles.Proofs.Text.Digits
import DpuCycles.Proofs.Text.Encoded
import DpuCycles.Record.Cost
import DpuCycles.Record.CostModel
import DpuCycles.Record.Domain
import DpuCycles.Record.Form
import DpuCycles.Record.Hardware
import DpuCycles.Record.Job
import DpuCycles.Record.Layer
import DpuCycles.Record.Tensor
import DpuCycles.Record.Workload
import DpuCycles.Settings
import DpuCycles.Shape
import DpuCycles.Split.Cut
import DpuCycles.Split.Layer
import DpuCycles.Split.LayerCost
import DpuCycles.Split.Options
import DpuCycles.Split.Schedule
import DpuCycles.Split.Search
import DpuCycles.Tensor
import DpuCycles.Text
import DpuCycles.Transfer
import DpuCycles.Workload
