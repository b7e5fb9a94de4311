import DpuCycles.Enumerated

namespace DpuCycles

/-! # Operations and activation functions -/

/-- What a workload computes. -/
inductive Operation where
  | convolution
  | depthwise
  | eltwise
  | maxPool
  | avePool
  | channelMajor
  | layerNorm
  | eltwiseMul
  deriving Repr, DecidableEq

namespace Operation

instance : Enumerated Operation where
  domain := "Operation"
  values := [.convolution, .depthwise, .eltwise, .maxPool, .avePool, .channelMajor, .layerNorm,
    .eltwiseMul]
  label
    | .convolution => "Convolution"
    | .depthwise => "DwConvolution"
    | .eltwise => "Eltwise"
    | .maxPool => "MaxPool"
    | .avePool => "AvePool"
    | .channelMajor => "CmConvolution"
    | .layerNorm => "LayerNorm"
    | .eltwiseMul => "EltwiseMul"

/-- Operations on two tensors, element by element. -/
def isElementwise : Operation → Bool
  | .eltwise => true
  | .eltwiseMul => true
  | _ => false

/-- Operations with as many output channels as input channels. -/
def keepsChannels : Operation → Bool
  | .eltwise => true
  | .eltwiseMul => true
  | .depthwise => true
  | .maxPool => true
  | .avePool => true
  | _ => false

/-- Operations that sum over all input channels. -/
def isConvolution : Operation → Bool
  | .convolution => true
  | .channelMajor => true
  | _ => false

end Operation

/-- Function applied to each output element. -/
inductive Activation where
  | none
  | relu
  | lrelu
  | add
  | sub
  | mult
  deriving Repr, DecidableEq

instance : Enumerated Activation where
  domain := "ActivationFunction"
  values := [.none, .relu, .lrelu, .add, .sub, .mult]
  label
    | .none => "None"
    | .relu => "Relu"
    | .lrelu => "Lrelu"
    | .add => "Add"
    | .sub => "Sub"
    | .mult => "Mult"

end DpuCycles
