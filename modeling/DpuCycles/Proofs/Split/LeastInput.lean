import DpuCycles.Legality.Rules
import DpuCycles.Split.Layer

namespace DpuCycles

/-!
# The least input of an output

The rules count the positions of a kernel inside the padded input.  They count an output
extent when so many positions fit and one more does not.  A cut goes the other way and
infers the input that the positions just fill.  That is the least input which gives the
output, and the others are longer by less than a stride.

The rules keep the number of steps as a 32-bit word.  A 32-bit input is too short for so
many steps that another word would stand for the output.
-/

variable
  {input output before after kernel stride : Nat}

/-- The strides before the last position are the same in integers and in naturals. -/
theorem positions_cast
    (stride : Nat)
    (positive : 0 < output) :
    ((output : Int) - 1) * stride = ((output - 1) * stride : Nat) := by
  rw [Int.natCast_mul, Int.natCast_sub positive]
  rfl

theorem inputExtent_eq
    (kernel padding stride : Nat)
    (positive : 0 < output) :
    inputExtent output kernel padding stride =
      ((output - 1) * stride + kernel - padding) % 2 ^ 32 := by
  rw [inputExtent, positions_cast stride positive]
  congr 1
  omega

/-- One more output takes one more stride. -/
theorem succ_positions
    (stride : Nat)
    (positive : 0 < output) :
    output * stride = (output - 1) * stride + stride := by
  rw [← Nat.succ_mul, Nat.succ_eq_add_one, Nat.sub_add_cancel positive]

/-- A word of steps stands for an output when fewer than another round of words can be made. -/
theorem steps_mod_eq_iff
    {steps : Nat}
    (positive : 0 < output)
    (isWord : output ≤ 2 ^ 32)
    (few : steps < output - 1 + 2 ^ 32) :
    steps % 2 ^ 32 + 1 = output ↔ steps = output - 1 := by
  omega

/-- An output is counted when its positions fit and one more does not. -/
theorem outputExtent?_eq_some_iff_positions
    (outputPositive : 0 < output)
    (kernelPositive : 0 < kernel)
    (stridePositive : 0 < stride)
    (isWord : output ≤ 2 ^ 32)
    (few : input + before + after < (output - 1 + 2 ^ 32) * stride + kernel) :
    outputExtent? input before after kernel stride = some output ↔
      (output - 1) * stride + kernel ≤ input + before + after ∧
        input + before + after < output * stride + kernel := by
  unfold outputExtent?
  by_cases fits : input + before + after < kernel
  · rw [if_pos (.inr (.inr fits))]
    refine iff_of_false (fun given => by cases given) fun between => ?_
    omega
  · have fewSteps :
        (input + before + after - kernel) / stride < output - 1 + 2 ^ 32 :=
      (Nat.div_lt_iff_lt_mul stridePositive).mpr (by omega)
    have reached :
        output - 1 ≤ (input + before + after - kernel) / stride ↔
          (output - 1) * stride ≤ input + before + after - kernel :=
      Nat.le_div_iff_mul_le stridePositive
    have notExceeded :
        (input + before + after - kernel) / stride < output ↔
          input + before + after - kernel < output * stride :=
      Nat.div_lt_iff_lt_mul stridePositive
    rw [if_neg (by omega), Option.some.injEq, steps_mod_eq_iff outputPositive isWord fewSteps]
    omega

/--
The input inferred for an output gives that output.  Another 32-bit input gives it exactly
when it is not smaller, and longer by less than a stride.  The padding must not cover more
than the positions reach, and the inferred input must be a 32-bit word.
-/
theorem inputExtent_isLeast
    (outputPositive : 0 < output)
    (kernelPositive : 0 < kernel)
    (stridePositive : 0 < stride)
    (covers : before + after ≤ (output - 1) * stride + kernel)
    (isWord : output < 2 ^ 32)
    (leastIsWord : (output - 1) * stride + kernel - (before + after) < 2 ^ 32) :
    let least := inputExtent output kernel (before + after) stride
    outputExtent? least before after kernel stride = some output ∧
      ∀ input, input < 2 ^ 32 →
        (outputExtent? input before after kernel stride = some output ↔
          least ≤ input ∧ input < least + stride) := by
  intro least
  have isLeast : least = (output - 1) * stride + kernel - (before + after) := by
    rw [← Nat.mod_eq_of_lt leastIsWord]
    exact inputExtent_eq kernel (before + after) stride outputPositive
  have next := succ_positions stride outputPositive
  have gives : ∀ input, input < 2 ^ 32 →
      (outputExtent? input before after kernel stride = some output ↔
        least ≤ input ∧ input < least + stride) := by
    intro input inputIsWord
    have few : input + before + after < (output - 1 + 2 ^ 32) * stride + kernel := by
      have words : 2 ^ 32 ≤ 2 ^ 32 * stride := Nat.le_mul_of_pos_right _ stridePositive
      rw [Nat.add_mul]
      omega
    rw [outputExtent?_eq_some_iff_positions outputPositive kernelPositive stridePositive
      (Nat.le_of_lt isWord) few, next]
    omega
  refine ⟨(gives least (isLeast ▸ leastIsWord)).mpr ⟨Nat.le_refl _, ?_⟩, gives⟩
  exact Nat.lt_add_of_pos_right stridePositive

/-- Two outputs are given by the padding alone, or by a single point between it. -/
theorem inputExtent_isLeast_of_widePadding :
    2 + 2 ≤ (2 - 1) * 2 + 2 ∧
      inputExtent 2 2 (2 + 2) 2 = 0 ∧
      outputExtent? 0 2 2 2 2 = some 2 ∧
      ∀ input, input < 2 ^ 32 → (outputExtent? input 2 2 2 2 = some 2 ↔ input < 2) := by
  have two : 0 < 2 := by decide
  have covers : 2 + 2 ≤ (2 - 1) * 2 + 2 := by decide
  have least : inputExtent 2 2 (2 + 2) 2 = 0 := by decide
  obtain ⟨gives, others⟩ := inputExtent_isLeast two two two covers (by decide) (by decide)
  rw [least] at gives others
  refine ⟨covers, least, gives, fun input isWord => ?_⟩
  rw [others input isWord]
  omega

end DpuCycles
