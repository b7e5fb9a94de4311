import DpuCycles.Network.KernelKind
import DpuCycles.Network.Version
import DpuCycles.Proofs.Json.Fields
import DpuCycles.Proofs.Text.Digits

namespace DpuCycles.Network

/-!
# Named texts read back

A name without separators keeps its place between the separators that a written
version puts behind it, and the two numbers after it are read as they were
written.  The kinds of kernels are read back from the one text that lists them.
-/

open Text

namespace Version

/-- A text without separators is one part. -/
theorem parts_of_notMem
    {separator : Char}
    {text : List Char}
    (unbroken : separator ∉ text) :
    parts separator text = [text] := by
  induction text with
  | nil =>
      rfl
  | cons character text inductionHypothesis =>
      rw [List.mem_cons, not_or] at unbroken
      rw [parts, if_neg (Ne.symm unbroken.1), inductionHypothesis unbroken.2]

/-- A text without separators is the part in front of the first separator. -/
theorem parts_append
    {separator : Char}
    {text : List Char}
    (unbroken : separator ∉ text)
    (rest : List Char) :
    parts separator (text ++ separator :: rest) = text :: parts separator rest := by
  induction text with
  | nil =>
      rw [List.nil_append, parts, if_pos rfl]
  | cons character text inductionHypothesis =>
      rw [List.mem_cons, not_or] at unbroken
      rw [List.cons_append, parts, if_neg (Ne.symm unbroken.1), inductionHypothesis unbroken.2]

theorem partNumber_toString
    {default number : Nat}
    (within : number ≤ greatest32) :
    partNumber default (some (toString number).toList) = number := by
  rw [partNumber, Option.bind_some, trim_toString, unsigned?_toString within, Option.getD_some]

/-- A written version reads back when its name is neither empty nor broken by a separator. -/
theorem parse_text
    {version : Version}
    (named : version.name ≠ "")
    (unbroken : '-' ∉ version.name.toList)
    (input : version.input ≤ greatest32)
    (output : version.output ≤ greatest32) :
    parse version.text = version := by
  have split : parts '-' version.text.toList =
      [version.name.toList, (toString version.input).toList, (toString version.output).toList] := by
    have shape : version.text.toList = version.name.toList ++ '-' ::
        ((toString version.input).toList ++ '-' :: (toString version.output).toList) := by
      simp [text]
    rw [shape, parts_append unbroken, parts_append (notMem_toString (by decide) _),
      parts_of_notMem (notMem_toString (by decide) _)]
  cases characters : version.name.toList with
  | nil =>
      exact absurd (String.toList_eq_nil_iff.mp characters) named
  | cons first others =>
      have name : String.ofList (first :: others) = version.name := by
        rw [← characters, String.ofList_toList]
      rw [parse, split, characters]
      simp only [List.getElem?_cons_succ, List.getElem?_cons_zero, partNumber_toString input,
        partNumber_toString output, name]

end Version

namespace KernelKind

theorem toJson_faithful (kind : KernelKind) :
    Json.Faithful kind.toJson := by
  cases kind with
  | nearest neighbours =>
      refine .object _ fun member isMember => ?_
      simp only [List.mem_cons, List.not_mem_nil, or_false] at isMember
      rcases isMember with rfl | rfl
      · exact .text _
      · exact .whole false neighbours
  | _ =>
      refine .object _ fun member isMember => ?_
      rw [List.mem_singleton.mp isMember]
      exact .text _

/-- A kind reads back from its JSON value when its number fits 64 bits. -/
theorem ofJson?_toJson
    {kind : KernelKind}
    (fits : ∀ neighbours, kind = .nearest neighbours → neighbours ≤ greatest64) :
    ofJson? kind.toJson = some kind := by
  cases kind with
  | nearest neighbours =>
      have sound : Json.isSound depth (.ofNat neighbours) = true :=
        Json.isSound_ofNat (fits neighbours rfl)
      have number : (Json.ofNat neighbours).natural? greatest64 = some neighbours :=
        Json.natural?_ofNat (fits neighbours rfl)
      have fields : ofJson? (KernelKind.nearest neighbours).toJson =
          if Json.isSound depth (.ofNat neighbours) && true then
            ((Json.ofNat neighbours).natural? greatest64).map .nearest
          else
            none := rfl
      rw [fields, sound, number]
      rfl
  | _ =>
      rfl

/-- Written kinds read back when their numbers fit 64 bits. -/
theorem readAll?_writeAll
    {kinds : List KernelKind}
    (fits : ∀ neighbours, .nearest neighbours ∈ kinds → neighbours ≤ greatest64) :
    readAll? (writeAll kinds) = some kinds := by
  have faithful : Json.Faithful (.array (kinds.map toJson)) := by
    refine .array _ fun item member => ?_
    obtain ⟨kind, -, rfl⟩ := List.mem_map.mp member
    exact kind.toJson_faithful
  have read : Json.read? (Json.array (kinds.map toJson)).compact =
      some (.array (kinds.map toJson)) := by
    have noSpace : ∀ character ∈ ([] : List Char), Json.isSpace character = true := by simp
    simpa using faithful.read?_compact noSpace
  have each : (kinds.map toJson).mapM ofJson? = some kinds :=
    Json.mapM_map_of_readBack fun kind member =>
      ofJson?_toJson fun neighbours isNearest => fits neighbours (isNearest ▸ member)
  rw [readAll?, writeAll, String.toList_ofList, read]
  exact each

end KernelKind

end DpuCycles.Network
