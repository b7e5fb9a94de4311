import DpuCycles.Proofs.Legality.Admission
import Mathlib.Tactic.MkIffOfInductiveProp

namespace DpuCycles

/-!
# Memory counted in full

The memory a job is admitted by is counted in words.  It is the exact one as soon
as its total and its output are words themselves, and so are the two counts that
grow beyond what the total says: the packed bits of a kernel, which are divided
by eight, and the size of the kernels, of which their zeros are taken off again.
-/

theorem DataType.bytes_pos (dtype : DataType) : 0 < dtype.bytes := by
  cases dtype <;> decide

namespace Footprint

variable {job : Job}

theorem le_wholePages
    (size page : Nat) :
    size ≤ wholePages id size page := by
  unfold wholePages
  split
  · exact Nat.le_refl size
  · rename_i large
    exact le_roundUp size (Nat.lt_of_lt_of_le Nat.one_pos (Nat.le_of_not_le large))

theorem wholePages_of_lt
    {size page : Nat}
    (fits : wholePages id size page < 2 ^ 64) :
    wholePages (word 64) size page = wholePages id size page := by
  unfold wholePages at fits ⊢
  split
  · rfl
  · rename_i large
    rw [if_neg large] at fits
    exact word_of_lt fits

/-- Every element takes a byte. -/
theorem volume_le_tensorBytes
    (tensor : Tensor)
    (volume : Nat) :
    volume ≤ tensorBytes id tensor volume :=
  Nat.le_trans (Nat.le_mul_of_pos_right volume tensor.dtype.bytes_pos) (Nat.le_add_right _ _)

theorem tensorBytes_of_lt
    {tensor : Tensor}
    {volume : Nat}
    (fits : tensorBytes id tensor volume < 2 ^ 64) :
    tensorBytes (word 64) tensor (word 64 volume) = tensorBytes id tensor volume := by
  have elements : word 64 volume = volume :=
    word_of_lt (Nat.lt_of_le_of_lt (volume_le_tensorBytes tensor volume) fits)
  rw [elements]
  exact word_of_lt fits

theorem inputBytes_of_lt
    (fits : inputBytes id job < 2 ^ 64) :
    inputBytes (word 64) job = inputBytes id job := by
  unfold inputBytes at fits ⊢
  dsimp only at fits ⊢
  split
  · rename_i active
    rw [if_pos active] at fits
    exact word_of_lt fits
  · rename_i inactive
    rw [if_neg inactive] at fits
    split
    · rename_i channelMajor
      rw [if_pos channelMajor] at fits
      exact tensorBytes_of_lt fits
    · rename_i summing
      rw [if_neg summing] at fits
      exact tensorBytes_of_lt fits

theorem outputBytes_of_lt
    (fits : outputBytes id job < 2 ^ 64) :
    outputBytes (word 64) job = outputBytes id job :=
  tensorBytes_of_lt fits

theorem kernelBytes_of_lt
    (fits : kernelBits job < 2 ^ 64) :
    kernelBytes (word 64) job = kernelBytes id job := by
  rw [kernelBytes, kernelBytes, word_of_lt fits]
  rfl

/-- Nothing is lost where the memory of a job is counted. -/
@[mk_iff]
structure InWords
    (table : Capability)
    (ignoreOverhead : Bool)
    (job : Job) : Prop where
  total : (inFull table ignoreOverhead job).total < 2 ^ 64
  output : (inFull table ignoreOverhead job).output < 2 ^ 64
  kernelBits : kernelBits job < 2 ^ 64
  kernels : kernelBytes id job * job.output.shape.channels < 2 ^ 64
  /-- Only sparse kernels have a map of their zeros. -/
  map : job.weights.sparse = true → mapElements job < 2 ^ 64

namespace InWords

variable
  {table : Capability}
  {ignoreOverhead : Bool}

instance
    (table : Capability)
    (ignoreOverhead : Bool)
    (job : Job) : Decidable (InWords table ignoreOverhead job) :=
  decidable_of_iff _ (inWords_iff table ignoreOverhead job).symm

theorem kernelsBytes_eq
    (inWords : InWords table ignoreOverhead job)
    (fits : kernelsBytes id job < 2 ^ 64) :
    kernelsBytes (word 64) job = kernelsBytes id job := by
  have kernels : word 64 (kernelBytes id job * job.output.shape.channels) =
      id (kernelBytes id job * job.output.shape.channels) :=
    word_of_lt inWords.kernels
  unfold kernelsBytes at fits ⊢
  rw [kernelBytes_of_lt inWords.kernelBits]
  dsimp only at fits ⊢
  rw [kernels]
  split
  · rename_i sparse
    have elements : word 64 (mapElements job) = id (mapElements job) :=
      word_of_lt (inWords.map sparse)
    rw [if_pos sparse] at fits
    rw [elements]
    exact word_of_lt fits
  · rename_i dense
    rw [if_neg dense] at fits
    exact word_of_lt fits

theorem weightsBytes_eq
    (inWords : InWords table ignoreOverhead job)
    (fits : weightsBytes id job < 2 ^ 64) :
    weightsBytes (word 64) job = weightsBytes id job := by
  unfold weightsBytes at fits ⊢
  split
  · rfl
  · rename_i isEltwise
    rw [isEltwise] at fits
    dsimp only at fits ⊢
    split
    · rfl
    · rename_i weighted
      rw [if_neg weighted] at fits
      have elements : word 64 job.weights.shape.volume = id job.weights.shape.volume :=
        word_of_lt
          (Nat.lt_of_le_of_lt
            (Nat.le_mul_of_pos_right _ job.weights.dtype.bytes_pos) fits)
      rw [elements]
      exact word_of_lt fits
  · refine inWords.kernelsBytes_eq ?_
    split at fits
    · contradiction
    · contradiction
    · exact fits

/-- Where nothing is lost, the memory counted in words is the exact one. -/
theorem ofJob_eq_inFull
    (inWords : InWords table ignoreOverhead job) :
    ofJob table ignoreOverhead job = inFull table ignoreOverhead job := by
  have total := inWords.total
  have output := inWords.output
  simp only [inFull, sized, id_eq] at total output
  have inputPages : wholePages id (inputBytes id job) table.page < 2 ^ 64 := by omega
  have weightsPages : wholePages id (weightsBytes id job) table.page < 2 ^ 64 := by omega
  have inputSize := inputBytes_of_lt (Nat.lt_of_le_of_lt (le_wholePages _ _) inputPages)
  have weightsSize :=
    inWords.weightsBytes_eq (Nat.lt_of_le_of_lt (le_wholePages _ _) weightsPages)
  have outputSize := outputBytes_of_lt (Nat.lt_of_le_of_lt (le_wholePages _ _) output)
  simp only [ofJob, inFull, sized, inputSize, weightsSize, outputSize, id_eq,
    wholePages_of_lt inputPages, wholePages_of_lt weightsPages, wholePages_of_lt output,
    word_of_lt total]

end InWords

end Footprint

namespace Gate

variable
  {gate : Gate}
  {workload : Workload}
  {table : Capability}
  {family : Family}

/-- Nothing is lost where the memory of a workload is counted, if it is counted at all. -/
def InWords
    (gate : Gate)
    (workload : Workload) : Prop :=
  ∀ table family,
    Capability.ofDevice? gate.tables workload.device = some table →
      family? table workload.canonicalize.operation = some family →
        Footprint.InWords table gate.ignoreOverhead
          (.ofWorkload (workload.canonicalize.fold table) family)

theorem inWords_of_family
    (isTable : Capability.ofDevice? gate.tables workload.device = some table)
    (isFamily : family? table workload.canonicalize.operation = some family)
    (inWords :
      Footprint.InWords table gate.ignoreOverhead
        (.ofWorkload (workload.canonicalize.fold table) family)) :
    gate.InWords workload := by
  intro other kind isOther isKind
  obtain rfl := Option.some.inj (isTable.symm.trans isOther)
  obtain rfl := Option.some.inj (isFamily.symm.trans isKind)
  exact inWords

theorem Admits.inWords
    {job : Job}
    (admits : gate.Admits workload table family job)
    (inWords : gate.InWords workload) :
    Footprint.InWords table gate.ignoreOverhead job :=
  admits.isJob ▸ inWords table family admits.isTable admits.isFamily

end Gate

end DpuCycles
