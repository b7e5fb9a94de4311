import DpuCycles.Enumerated

namespace DpuCycles

/-! # Device generations -/

/-- Generations of the accelerator. -/
inductive Device where
  | vpu20
  | vpu21
  | vpu27
  | vpu40
  deriving Repr, DecidableEq

namespace Device

instance : Enumerated Device where
  domain := "VPUDevice"
  values := [.vpu20, .vpu21, .vpu27, .vpu40]
  label
    | .vpu20 => "Vpu20"
    | .vpu21 => "Vpu21"
    | .vpu27 => "Vpu27"
    | .vpu40 => "Vpu40"

/-- From the third generation on, work is executed in cuboids. -/
def isCuboid : Device → Bool
  | .vpu20 => false
  | .vpu21 => false
  | .vpu27 => true
  | .vpu40 => true

/-- Up to the third generation, a copy inside the local memory moves half as much at once. -/
def halvesLocalCopies : Device → Bool
  | .vpu40 => false
  | _ => true

end Device

end DpuCycles
