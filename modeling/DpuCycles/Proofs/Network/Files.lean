import DpuCycles.Network.TensorFile
import DpuCycles.Proofs.Json.Fields
import DpuCycles.Proofs.Text.Encoded

namespace DpuCycles.Network

/-!
# Files read back

A written file reads back when its entries have names of their own, follow one
another without gaps and cover its numbers.  Entries that follow one another are
in the order a reader sorts them into, also where some of them take no bytes.
-/

open Text

theorem StoredType.ofLabel?_label (dtype : StoredType) :
    Enumerated.ofLabel? (Enumerated.label dtype) = some dtype := by
  cases dtype <;> rfl

namespace Entry

/-- An entry whose extents and offsets fit 64 bits. -/
structure Fits (entry : Entry) : Prop where
  extents : ∀ extent ∈ entry.shape, extent ≤ greatest64
  start : entry.start ≤ greatest64
  stop : entry.stop ≤ greatest64

theorem toJson_faithful (entry : Entry) :
    Json.Faithful entry.toJson := by
  have extents : Json.Faithful (.array (entry.shape.map Json.ofNat)) := by
    refine .array _ fun item member => ?_
    obtain ⟨extent, -, rfl⟩ := List.mem_map.mp member
    exact .whole false extent
  have offsets : Json.Faithful (.array [.ofNat entry.start, .ofNat entry.stop]) := by
    refine .array _ fun item member => ?_
    simp only [List.mem_cons, List.not_mem_nil, or_false] at member
    rcases member with rfl | rfl <;> exact .whole false _
  refine .object _ fun member isMember => ?_
  simp only [List.mem_cons, List.not_mem_nil, or_false] at isMember
  rcases isMember with rfl | rfl | rfl
  · exact .text _
  · exact extents
  · exact offsets

variable {entry : Entry}

/-- An entry reads back from its JSON value. -/
theorem Fits.ofJson?_toJson (fits : entry.Fits) :
    ofJson? entry.name entry.toJson = some entry := by
  have fields : Json.record? labels entry.toJson =
      some [some (.ofString (Enumerated.label entry.dtype)),
        some (.array (entry.shape.map Json.ofNat)),
        some (.array [.ofNat entry.start, .ofNat entry.stop])] := rfl
  have dtype : (Json.ofString (Enumerated.label entry.dtype)).alternative?.bind
      Enumerated.ofLabel? = some entry.dtype :=
    StoredType.ofLabel?_label entry.dtype
  have shape : shape? (.array (entry.shape.map Json.ofNat)) = some entry.shape :=
    Json.mapM_map_of_readBack fun extent member => Json.natural?_ofNat (fits.extents extent member)
  have offsets : offsets? (.array [.ofNat entry.start, .ofNat entry.stop]) =
      some (entry.start, entry.stop) := by
    rw [offsets?, Json.natural?_ofNat fits.start, Json.natural?_ofNat fits.stop]
  simp only [ofJson?, fields, dtype, shape, offsets]

/-- An entry is not nested deeper than a reader accepts. -/
theorem Fits.isSound_toJson (fits : entry.Fits) :
    Json.isSound TensorFile.depth entry.toJson = true := by
  have extents : ∀ depth, (entry.shape.map Json.ofNat).all (Json.isSound depth) = true := by
    intro depth
    rw [List.all_map, List.all_eq_true]
    exact fun extent member => Json.isSound_ofNat (fits.extents extent member)
  have start : ∀ depth, Json.isSound depth (.ofNat entry.start) = true := fun _ =>
    Json.isSound_ofNat fits.start
  have stop : ∀ depth, Json.isSound depth (.ofNat entry.stop) = true := fun _ =>
    Json.isSound_ofNat fits.stop
  simp [toJson, Json.ofMembers, Json.ofString, TensorFile.depth, Json.isSound, extents, start, stop]

/-- What it takes that entries follow one another up to a position. -/
theorem stop?_cons
    {position last : Nat}
    {rest : List Entry}
    (filled : stop? position (entry :: rest) = some last) :
    entry.start = position ∧ entry.start ≤ entry.stop ∧
      entry.size? = some (entry.stop - entry.start) ∧ stop? entry.stop rest = some last := by
  rw [stop?] at filled
  split at filled
  · rename_i here
    exact ⟨here.1, here.2.1, here.2.2, filled⟩
  · contradiction

/-- Entries that follow one another lie between the positions they start and end at. -/
theorem bounds_of_stop?
    {position last : Nat}
    {entries : List Entry}
    (filled : stop? position entries = some last) :
    position ≤ last ∧
      ∀ entry ∈ entries, position ≤ entry.start ∧ entry.start ≤ entry.stop ∧ entry.stop ≤ last := by
  induction entries generalizing position with
  | nil =>
      rw [stop?, Option.some.injEq] at filled
      exact ⟨Nat.le_of_eq filled, fun entry member => absurd member List.not_mem_nil⟩
  | cons entry rest inductionHypothesis =>
      obtain ⟨rfl, ordered, -, behind⟩ := stop?_cons filled
      obtain ⟨within, others⟩ := inductionHypothesis behind
      refine ⟨Nat.le_trans ordered within, fun other member => ?_⟩
      rcases List.mem_cons.mp member with rfl | isOther
      · exact ⟨Nat.le_refl _, ordered, within⟩
      · obtain ⟨start, inner, stop⟩ := others other isOther
        exact ⟨Nat.le_trans ordered start, inner, stop⟩

/-- Entries that follow one another are sorted by the bytes they take. -/
theorem pairwise_of_stop?
    {position last : Nat}
    {entries : List Entry}
    (filled : stop? position entries = some last) :
    entries.Pairwise fun left right => placedBefore left right = true := by
  induction entries generalizing position with
  | nil =>
      exact .nil
  | cons entry rest inductionHypothesis =>
      obtain ⟨-, ordered, -, behind⟩ := stop?_cons filled
      refine .cons (fun other member => ?_) (inductionHypothesis behind)
      obtain ⟨start, inner, -⟩ := (bounds_of_stop? behind).2 other member
      simp only [placedBefore, Bool.or_eq_true, Bool.and_eq_true, decide_eq_true_eq, beq_iff_eq]
      omega

end Entry

namespace TensorFile

/-- A file whose entries describe its numbers. -/
structure Laid (file : TensorFile) : Prop where
  distinct : file.entries.Pairwise fun left right => left.name ≠ right.name
  unreserved : ∀ entry ∈ file.entries, entry.name ≠ textsKey
  extents : ∀ entry ∈ file.entries, ∀ extent ∈ entry.shape, extent ≤ greatest64
  filled : Entry.stop? 0 file.entries = some file.data.length
  addressable : file.data.length ≤ greatest64

variable {file : TensorFile}

/-- Entries with names of their own are all kept. -/
theorem lastOfEach_of_pairwise
    {entries : List Entry}
    (distinct : entries.Pairwise fun left right => left.name ≠ right.name) :
    lastOfEach entries = entries := by
  induction distinct with
  | nil =>
      rfl
  | cons other _ inductionHypothesis =>
      rw [lastOfEach, if_neg, inductionHypothesis]
      simpa using fun entry member => Ne.symm (other entry member)

theorem Laid.fits
    (laid : file.Laid)
    {entry : Entry}
    (member : entry ∈ file.entries) :
    entry.Fits := by
  obtain ⟨-, inner, stop⟩ := (Entry.bounds_of_stop? laid.filled).2 entry member
  have within := Nat.le_trans stop laid.addressable
  exact ⟨laid.extents entry member, Nat.le_trans inner within, within⟩

theorem headerJson_faithful (file : TensorFile) :
    Json.Faithful file.headerJson := by
  have texts : Json.Faithful
      (.ofMembers (file.texts.map fun member => (member.1, .ofString member.2))) := by
    refine .object _ fun member isMember => ?_
    obtain ⟨_, -, rfl⟩ := List.mem_map.mp isMember
    exact .text _
  refine .object _ fun member isMember => ?_
  rcases List.mem_cons.mp isMember with rfl | isEntry
  · exact texts
  · obtain ⟨entry, -, rfl⟩ := List.mem_map.mp isEntry
    exact entry.toJson_faithful

/-- The texts and the entries are read back from the JSON value of the header. -/
theorem Laid.header?_headerJson (laid : file.Laid) :
    header? file.headerJson = some (file.texts, file.entries) := by
  let members := file.entries.map fun entry => (entry.name, entry.toJson)
  let written := file.texts.map fun member => (member.1, Json.ofString member.2)
  have other : ∀ member ∈ members, member.1 ≠ textsKey := by
    intro member isMember
    obtain ⟨entry, isEntry, rfl⟩ := List.mem_map.mp isMember
    exact laid.unreserved entry isEntry
  have texts : texts? (some (.ofMembers written)) = some file.texts := by
    rw [Json.ofMembers, texts?]
    refine (congrArg (Option.bind · _) (Json.keyed?_known written)).trans ?_
    exact Json.mapM_map_of_readBack fun _ _ => rfl
  have kept : ((textsKey, Json.ofMembers written) :: members).filter
      (fun member => member.1 != textsKey) = members := by
    rw [List.filter_cons_of_neg (by simp), List.filter_eq_self]
    simpa using other
  have entries : members.mapM entry? = some file.entries :=
    Json.mapM_map_of_readBack fun entry member => by
      rw [ entry?, if_pos (laid.fits member).isSound_toJson, (laid.fits member).ofJson?_toJson]
  have keyed : Json.keyed? (Json.known ((textsKey, Json.ofMembers written) :: members)) =
      some ((textsKey, Json.ofMembers written) :: members) :=
    Json.keyed?_known _
  have shape : file.headerJson =
      .object (Json.known ((textsKey, Json.ofMembers written) :: members)) := rfl
  simp only [shape, header?, keyed, Option.bind_some, Json.field?_cons other, texts, kept, entries,
    Option.map_some, lastOfEach_of_pairwise laid.distinct,
    List.mergeSort_of_pairwise (Entry.pairwise_of_stop? laid.filled)]

/-- The bytes of the header are a text: its compact form with spaces behind it. -/
theorem textOf?_headerBytes (file : TensorFile) :
    ∃ count, textOf? file.headerBytes =
      some (String.ofList (file.headerJson.compact ++ List.replicate count ' ')) := by
  let compact := String.ofList file.headerJson.compact
  refine ⟨(8 - compact.toUTF8.toList.length % 8) % 8, ?_⟩
  have bytes : file.headerBytes = (compact ++ String.ofList (List.replicate
      ((8 - compact.toUTF8.toList.length % 8) % 8) ' ')).toUTF8.toList := by
    rw [toList_toUTF8_append, toList_toUTF8_spaces]
    rfl
  rw [textOf?, bytes, fromUTF8?_toUTF8, String.ofList_append]

/-- A written file reads back when its header is no longer than a reader accepts. -/
theorem Laid.read?_write
    (laid : file.Laid)
    (limited : file.headerBytes.length ≤ headerLimit) :
    read? file.write = some file := by
  have prefixed : (Bytes.ofNat 8 file.headerBytes.length).length = 8 := Bytes.length_ofNat 8 _
  have length : Bytes.toNat (file.write.take 8) = file.headerBytes.length := by
    rw [write, List.append_assoc, List.take_left' prefixed, Bytes.toNat_ofNat,
      Nat.mod_eq_of_lt (Nat.lt_of_le_of_lt limited (by decide))]
  have body : file.write.drop 8 = file.headerBytes ++ file.data := by
    rw [write, List.append_assoc, List.drop_left' prefixed]
  have long : file.write.length = 8 + file.headerBytes.length + file.data.length := by
    simp only [write, List.length_append, prefixed]
  obtain ⟨count, text⟩ := textOf?_headerBytes file
  have value : Json.read? (file.headerJson.compact ++ List.replicate count ' ') =
      some file.headerJson := by
    refine file.headerJson_faithful.read?_compact fun character member => ?_
    rw [(List.mem_replicate.mp member).2]
    rfl
  rw [read?, length, if_neg (by omega), body]
  simp only [List.take_left, List.drop_left, text, Option.bind_some, String.toList_ofList, value,
    laid.header?_headerJson, laid.filled, if_true]

end TensorFile

end DpuCycles.Network
