import DpuCycles.Network.Draft
import DpuCycles.Proofs.Network.Files
import DpuCycles.Proofs.Network.Texts

namespace DpuCycles

/-!
# Tensors of a draft read back

The tensors of a draft have names of their own, so that each of them is found
again wherever the order of names puts it.  Its bytes follow those of the tensors
before it, and groups of them give the numbers as they were stored.
-/

namespace Bytes

/-- Groups of bytes give back the numbers, as far as their width reaches. -/
theorem words_flatMap
    {width : Nat}
    {number : α → Nat}
    {values : List α}
    (some : 0 < width) :
    words width (values.flatMap fun value => ofNat width (number value)) =
      values.map fun value => number value % 256 ^ width := by
  have length : ∀ values : List α,
      (values.flatMap fun value => ofNat width (number value)).length = values.length * width := by
    intro values
    simp [List.length_flatMap, length_ofNat, List.map_const']
  rw [words, length, Nat.mul_div_cancel _ some]
  clear length
  induction values with
  | nil =>
      rfl
  | cons value values inductionHypothesis =>
      rw [List.length_cons, List.flatMap_cons, groups, List.take_left' (length_ofNat _ _),
        List.drop_left' (length_ofNat _ _), List.map_cons, List.map_cons, inductionHypothesis,
        toNat_ofNat]

end Bytes

namespace Network

open Text

/-- What a stored number is read as. -/
def storedValue
    (half : Bool)
    (value : Single) : Single :=
  if half then Half.toSingle (Half.ofSingle value) else value

namespace Draft

/-- The bytes of a tensor. -/
def tensorBytes
    (draft : Draft)
    (stored : Stored) : List UInt8 :=
  stored.values.flatMap draft.numberBytes

theorem length_tensorBytes
    (draft : Draft)
    (stored : Stored) :
    (draft.tensorBytes stored).length = stored.values.length * draft.dtype.bytes := by
  have each : ∀ value, (draft.numberBytes value).length = draft.dtype.bytes := by
    intro value
    cases half : draft.half <;>
      simp [numberBytes, dtype, half, Bytes.length_ofNat, StoredType.bytes]
  simp [tensorBytes, List.length_flatMap, each, List.map_const']

/-- The numbers of a tensor are read from its bytes. -/
theorem floats?_tensorBytes
    {draft : Draft}
    {stored : Stored}
    {file : TensorFile}
    {entry : Entry}
    (dtype : entry.dtype = draft.dtype)
    (bytes : file.bytesOf entry = draft.tensorBytes stored) :
    Trained.floats? file entry =
      some (stored.values.map (storedValue draft.half)).toArray := by
  cases half : draft.half with
  | false =>
      have isSingle : entry.dtype = .f32 := by simp [dtype, Draft.dtype, half]
      have number : draft.numberBytes = fun value => Bytes.ofNat 4 value.bits.toNat := by
        funext value
        simp [numberBytes, half]
      have kept : ∀ value : Single,
          Single.mk (UInt32.ofNat (value.bits.toNat % 256 ^ 4)) = storedValue false value := by
        intro value
        rw [Nat.mod_eq_of_lt value.bits.toNat_lt, UInt32.ofNat_toNat]
        rfl
      simp only [Trained.floats?, isSingle, bytes, tensorBytes, number,
        Bytes.words_flatMap (by decide : 0 < 4), List.map_map]
      exact congrArg (some ∘ List.toArray) (List.map_congr_left fun value _ => kept value)
  | true =>
      have isHalf : entry.dtype = .f16 := by simp [dtype, Draft.dtype, half]
      have number : draft.numberBytes = fun value =>
          Bytes.ofNat 2 (Half.ofSingle value).toNat := by
        funext value
        simp [numberBytes, half]
      have kept : ∀ value : Single,
          Half.toSingle (UInt16.ofNat ((Half.ofSingle value).toNat % 256 ^ 2)) =
            storedValue true value := by
        intro value
        rw [Nat.mod_eq_of_lt (Half.ofSingle value).toNat_lt, UInt16.ofNat_toNat]
        rfl
      simp only [Trained.floats?, isHalf, bytes, tensorBytes, number,
        Bytes.words_flatMap (by decide : 0 < 2), List.map_map]
      exact congrArg (some ∘ List.toArray) (List.map_congr_left fun value _ => kept value)

/-- A tensor is found by its name, and its bytes are those that stand for its numbers. -/
theorem find?_place
    {draft : Draft}
    {tensors : List Stored}
    {stored : Stored}
    {start : Nat}
    {before : List UInt8}
    (distinct : tensors.Pairwise fun left right => left.name ≠ right.name)
    (member : stored ∈ tensors)
    (behind : before.length = start) :
    ∃ entry, (place draft.dtype start tensors).find? (fun entry => entry.name == stored.name) =
        some entry ∧
      entry.dtype = draft.dtype ∧ entry.shape = stored.shape ∧
        ((before ++ tensors.flatMap draft.tensorBytes).drop entry.start).take
          (entry.stop - entry.start) = draft.tensorBytes stored := by
  induction tensors generalizing start before with
  | nil =>
      exact absurd member List.not_mem_nil
  | cons first others inductionHypothesis =>
      have length := draft.length_tensorBytes first
      rw [List.flatMap_cons]
      rcases List.mem_cons.mp member with rfl | isOther
      · refine ⟨_, List.find?_cons_of_pos (by simp), rfl, rfl, ?_⟩
        dsimp only
        rw [List.drop_left' behind, Nat.add_sub_cancel_left, List.take_left' length]
      · -- the bytes of the first tensor join those that stand in front of the others
        have otherName : first.name ≠ stored.name := List.rel_of_pairwise_cons distinct isOther
        have next : (before ++ draft.tensorBytes first).length =
            start + first.values.length * draft.dtype.bytes := by
          rw [List.length_append, length, behind]
        obtain ⟨entry, found, dtype, shape, bytes⟩ :=
          inductionHypothesis distinct.of_cons isOther next
        refine ⟨entry, ?_, dtype, shape, ?_⟩
        · rw [place, List.find?_cons_of_neg (by simpa using otherName)]
          exact found
        · rw [← List.append_assoc]
          exact bytes

/-- A name that no tensor has is not found. -/
theorem find?_place_eq_none
    {dtype : StoredType}
    {tensors : List Stored}
    {name : String}
    {start : Nat}
    (other : ∀ stored ∈ tensors, stored.name ≠ name) :
    (place dtype start tensors).find? (fun entry => entry.name == name) = none := by
  induction tensors generalizing start with
  | nil =>
      rfl
  | cons first others inductionHypothesis =>
      rw [place, List.find?_cons_of_neg (by simpa using other first List.mem_cons_self)]
      exact inductionHypothesis fun stored member => other stored (List.mem_cons_of_mem _ member)

end Draft

namespace Stored

/-- Extents of a matrix or of a row that fit 64 bits. -/
inductive Shaped : List Nat → Prop where
  | matrix {rows columns : Nat} (rowsFit : rows ≤ greatest64) (columnsFit : columns ≤ greatest64) :
      Shaped [rows, columns]
  | row {count : Nat} (fits : count ≤ greatest64) : Shaped [count]

theorem Shaped.le
    {shape : List Nat}
    (shaped : Shaped shape) :
    ∀ extent ∈ shape, extent ≤ greatest64 := by
  cases shaped with
  | matrix rowsFit columnsFit =>
      simpa using ⟨rowsFit, columnsFit⟩
  | row fits =>
      simpa using fits

/-- The values of a tensor are counted by its extents. -/
theorem Shaped.boundedProduct?
    {stored : Stored}
    (shaped : Shaped stored.shape)
    (fits : Draft.fits stored = true)
    (within : stored.values.length ≤ greatest64) :
    Entry.boundedProduct? 1 stored.shape = some stored.values.length := by
  rw [Draft.fits, beq_iff_eq] at fits
  rw [fits] at within ⊢
  generalize stored.shape = shape at shaped within ⊢
  cases shaped with
  | matrix rowsFit columnsFit =>
      simp only [List.foldl_cons, List.foldl_nil, Nat.one_mul] at within
      simp [Entry.boundedProduct?, rowsFit, within]
  | row fits =>
      simp [Entry.boundedProduct?, fits]

/-- Names of the parts of a kernel. -/
def partNames : List String := ["weight", "bias", "target"]

end Stored

/-- The name of a tensor has its kernel and its part between separators. -/
theorem Trained.parts_tensorName
    {position : Nat}
    {part : String}
    (isPart : part ∈ Stored.partNames) :
    Version.parts '.' (tensorName position part).toList =
      ["layer".toList, (toString position).toList, part.toList] := by
  have noPoint : ∀ part ∈ Stored.partNames, '.' ∉ part.toList := by decide
  have shape : (tensorName position part).toList =
      "layer".toList ++ '.' :: ((toString position).toList ++ '.' :: part.toList) := by
    simp [tensorName]
  rw [shape, Version.parts_append (by decide),
    Version.parts_append (notMem_toString (by decide) position),
    Version.parts_of_notMem (noPoint part isPart)]

/-- Tensors of different kernels or different parts have different names. -/
theorem Trained.tensorName_inj
    {position other : Nat}
    {part otherPart : String}
    (isPart : part ∈ Stored.partNames)
    (isOther : otherPart ∈ Stored.partNames)
    (same : tensorName position part = tensorName other otherPart) :
    position = other ∧ part = otherPart := by
  have parts : Version.parts '.' (tensorName position part).toList = _ := parts_tensorName isPart
  rw [same, parts_tensorName isOther] at parts
  simp only [List.cons.injEq, and_true, true_and] at parts
  exact ⟨toString_inj (String.toList_inj.mp parts.1.symm), String.toList_inj.mp parts.2.symm⟩

/-- No tensor is named as the texts of a file are. -/
theorem Trained.tensorName_ne_textsKey
    (position : Nat)
    (part : String) :
    tensorName position part ≠ TensorFile.textsKey := by
  intro same
  have first : (tensorName position part).toList.head? = TensorFile.textsKey.toList.head? := by
    rw [same]
  simp [tensorName, TensorFile.textsKey] at first

namespace KernelDraft

/-- Sizes of a kernel that fit 64 bits. -/
def InWords : KernelDraft → Prop
  | .dense outputs _ _ => outputs ≤ greatest64
  | .nearest _ _ targets => targets.length ≤ greatest64
  | _ => True

theorem outputWidth_le
    {width : Nat}
    {kernel : KernelDraft}
    (inWords : kernel.InWords)
    (narrow : width ≤ greatest64) :
    kernel.outputWidth width ≤ greatest64 := by
  cases kernel with
  | dense outputs weight bias =>
      exact inWords
  | nearest neighbours points targets =>
      exact (by decide : 1 ≤ greatest64)
  | _ =>
      exact narrow

/-- The parts that a kernel stores. -/
def parts : KernelDraft → List String
  | .dense _ _ none => ["weight"]
  | .dense _ _ (some _) => ["weight", "bias"]
  | .nearest _ _ _ => ["weight", "target"]
  | _ => []

theorem parts_subset (kernel : KernelDraft) :
    kernel.parts ⊆ Stored.partNames := by
  fun_cases parts kernel <;> decide

theorem parts_nodup (kernel : KernelDraft) :
    kernel.parts.Nodup := by
  fun_cases parts kernel <;> decide

theorem map_name_tensors
    (position width : Nat)
    (kernel : KernelDraft) :
    (kernel.tensors position width).map Stored.name =
      kernel.parts.map (Trained.tensorName position) := by
  cases kernel with
  | dense outputs weight bias =>
      cases bias <;> rfl
  | _ =>
      rfl

variable {position width : Nat} {kernel : KernelDraft} {stored : Stored}

theorem isPart_of_mem_tensors
    (member : stored ∈ kernel.tensors position width) :
    ∃ part ∈ kernel.parts, stored.name = Trained.tensorName position part := by
  have named : stored.name ∈ (kernel.tensors position width).map Stored.name :=
    List.mem_map_of_mem member
  rw [map_name_tensors, List.mem_map] at named
  obtain ⟨part, isPart, name⟩ := named
  exact ⟨part, isPart, name.symm⟩

theorem shaped_of_mem_tensors
    (inWords : kernel.InWords)
    (narrow : width ≤ greatest64)
    (member : stored ∈ kernel.tensors position width) :
    Stored.Shaped stored.shape := by
  cases kernel with
  | dense outputs weight bias =>
      cases bias with
      | none =>
          rw [List.mem_singleton.mp member]
          exact .matrix narrow inWords
      | some bias =>
          rcases List.mem_cons.mp member with rfl | isRow
          · exact .matrix narrow inWords
          · rw [List.mem_singleton.mp isRow]
            exact .row inWords
  | nearest neighbours points targets =>
      rcases List.mem_cons.mp member with rfl | isRow
      · exact .matrix narrow inWords
      · rw [List.mem_singleton.mp isRow]
        exact .row inWords
  | _ =>
      exact absurd member List.not_mem_nil

theorem tensors_pairwise
    (position width : Nat)
    (kernel : KernelDraft) :
    (kernel.tensors position width).Pairwise fun left right => left.name ≠ right.name := by
  rw [← List.pairwise_map (f := Stored.name) (R := (· ≠ ·)), map_name_tensors, List.pairwise_map]
  refine kernel.parts_nodup.imp_of_mem fun left right different same => ?_
  exact different (Trained.tensorName_inj (kernel.parts_subset left) (kernel.parts_subset right)
    same).2

end KernelDraft

namespace Draft

variable {position width : Nat} {kernels : List KernelDraft} {stored : Stored}

/-- Kernels from a position on have no tensors of the kernels before it. -/
theorem isPart_of_mem_tensorsFrom
    (member : stored ∈ tensorsFrom position width kernels) :
    ∃ later, position ≤ later ∧
      ∃ part ∈ Stored.partNames, stored.name = Trained.tensorName later part := by
  induction kernels generalizing position width with
  | nil =>
      exact absurd member List.not_mem_nil
  | cons kernel rest inductionHypothesis =>
      rcases List.mem_append.mp member with isFirst | isLater
      · obtain ⟨part, isPart, name⟩ := KernelDraft.isPart_of_mem_tensors isFirst
        exact ⟨position, Nat.le_refl position, part, kernel.parts_subset isPart, name⟩
      · obtain ⟨later, behind, named⟩ := inductionHypothesis isLater
        exact ⟨later, Nat.le_of_succ_le behind, named⟩

theorem shaped_of_mem_tensorsFrom
    (inWords : ∀ kernel ∈ kernels, kernel.InWords)
    (narrow : width ≤ greatest64)
    (member : stored ∈ tensorsFrom position width kernels) :
    Stored.Shaped stored.shape := by
  induction kernels generalizing position width with
  | nil =>
      exact absurd member List.not_mem_nil
  | cons kernel rest inductionHypothesis =>
      have first := inWords kernel List.mem_cons_self
      rcases List.mem_append.mp member with isFirst | isLater
      · exact KernelDraft.shaped_of_mem_tensors first narrow isFirst
      · exact inductionHypothesis
          (fun other isOther => inWords other (List.mem_cons_of_mem _ isOther))
          (KernelDraft.outputWidth_le first narrow) isLater

/-- The tensors of all kernels have names of their own. -/
theorem tensorsFrom_pairwise
    (position width : Nat)
    (kernels : List KernelDraft) :
    (tensorsFrom position width kernels).Pairwise fun left right => left.name ≠ right.name := by
  induction kernels generalizing position width with
  | nil =>
      exact .nil
  | cons kernel rest inductionHypothesis =>
      refine List.pairwise_append.mpr ⟨kernel.tensors_pairwise position width,
        inductionHypothesis _ _, fun first isFirst other isOther same => ?_⟩
      obtain ⟨part, isPart, name⟩ := KernelDraft.isPart_of_mem_tensors isFirst
      obtain ⟨later, behind, otherPart, isOtherPart, otherName⟩ := isPart_of_mem_tensorsFrom isOther
      rw [name, otherName] at same
      have position := (Trained.tensorName_inj (kernel.parts_subset isPart) isOtherPart same).1
      omega

/-- The entries of tensors follow one another and take the bytes of the tensors. -/
theorem stop?_place
    {draft : Draft}
    {tensors : List Stored}
    {start : Nat}
    (fits : ∀ stored ∈ tensors, fits stored = true)
    (shaped : ∀ stored ∈ tensors, Stored.Shaped stored.shape)
    (within : (tensors.flatMap draft.tensorBytes).length ≤ greatest64) :
    Entry.stop? start (place draft.dtype start tensors) =
      some (start + (tensors.flatMap draft.tensorBytes).length) := by
  induction tensors generalizing start with
  | nil =>
      rfl
  | cons first others inductionHypothesis =>
      rw [List.flatMap_cons, List.length_append, length_tensorBytes] at within ⊢
      have bytes : 0 < draft.dtype.bytes := by
        cases draft.dtype <;> decide
      have values : first.values.length ≤ first.values.length * draft.dtype.bytes :=
        Nat.le_mul_of_pos_right _ bytes
      have count := (shaped first List.mem_cons_self).boundedProduct?
        (fits first List.mem_cons_self) (by omega)
      have size : Entry.boundedProduct? first.values.length [draft.dtype.bytes] =
          some (first.values.length * draft.dtype.bytes) := by
        rw [Entry.boundedProduct?, if_pos (by omega), Entry.boundedProduct?]
      have behind : Entry.stop? (start + first.values.length * draft.dtype.bytes) _ = _ :=
        inductionHypothesis
          (fun stored member => fits stored (List.mem_cons_of_mem _ member))
          (fun stored member => shaped stored (List.mem_cons_of_mem _ member)) (by omega)
      simp only [place, Entry.stop?, Entry.size?, count, Option.bind_some, size,
        Nat.add_sub_cancel_left, Nat.le_add_right, and_self, if_true, behind, Nat.add_assoc]

/-- Entries have the names and the extents of the tensors, in their order. -/
theorem map_place
    (dtype : StoredType)
    (start : Nat)
    (tensors : List Stored) :
    (place dtype start tensors).map (fun entry => (entry.name, entry.shape)) =
      tensors.map fun stored => (stored.name, stored.shape) := by
  induction tensors generalizing start with
  | nil =>
      rfl
  | cons first others inductionHypothesis =>
      rw [place, List.map_cons, List.map_cons, inductionHypothesis]

end Draft

end Network

end DpuCycles
