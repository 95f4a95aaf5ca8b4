import LMCacheHcu.Foundation.Text
import LMCacheHcu.Storage.HeaderBytes

/-! # What the header code does on every buffer

A header that was packed is unpacked to the same metadata. On any other buffer
`unpack_block_first_header` returns metadata or raises its own exception as long
as the decoded fields have the types that the checks use them with; the first
field of another type that a check reaches raises an exception of Python.
-/

namespace LMCacheHcu.Storage

open Exceptions Python

variable {F : Type} (runtime : HeaderRuntime F)

/-! ### Fields of the types that the checks need -/

/-- What `block_first_shape` needs: dimensions that convert to integers, and a
block size that is a number and divides. -/
structure ShapeTyped (logicalShape : List (Value F)) (blockSize : Value F) : Prop where
  dims : ∃ shape, logicalShape.mapM (Value.toInt runtime.floats) = .ok shape
  blockSize : ∀ numLayers numTokens hiddenDim,
    logicalShape.mapM (Value.toInt runtime.floats) = .ok [2, numLayers, numTokens, hiddenDim] →
    0 < numLayers → 0 < numTokens → 0 < hiddenDim →
    ∃ size, blockSize.number? = some size ∧ (size.le runtime.floats (.int 0) = false →
      ∃ rest, (Number.int numTokens).mod runtime.floats size = .ok rest ∧
        (rest.eq runtime.floats (.int 0) = true →
          ∃ count, (Number.int numTokens).floorDiv runtime.floats size = .ok count))

/-- What the checks on the worker need: numbers. The worker is reached when the
parallel sizes are positive. -/
structure WorkerTyped (metadata : RawMetadata F) : Prop where
  parallel : ∃ worldSize tensorSize pipelineSize,
    metadata.worldSize.number? = some worldSize ∧
    metadata.tensorParallelSize.number? = some tensorSize ∧
    metadata.pipelineParallelSize.number? = some pipelineSize ∧
    (((worldSize.min runtime.floats tensorSize).min runtime.floats pipelineSize).le runtime.floats
        (.int 0) = false →
      ∃ worker, metadata.workerId.number? = some worker)

/-- `align_up` is computed: a negative size is refused. -/
def AlignTyped (size : Number F) : Prop :=
  size.lt runtime.floats (.int 0) = false →
    ∃ shifted last count aligned,
      size.add runtime.floats (.int blockFirstAlignment) = .ok shifted ∧
      shifted.sub runtime.floats (.int 1) = .ok last ∧
      last.floorDiv runtime.floats (.int blockFirstAlignment) = .ok count ∧
      count.mul runtime.floats (.int blockFirstAlignment) = .ok aligned

/-- What the checks on the sizes need: a payload shape with a product. -/
def SizesTyped (metadata : RawMetadata F) (dtype : DType) : Prop :=
  ∃ dims count expected, metadata.payloadShape.mapM Value.operand = .ok dims ∧
    Number.prod runtime.floats dims = .ok count ∧
    count.mul runtime.floats (.int dtype.itemsize) = .ok expected ∧
    (metadata.payloadNbytes.equals runtime.floats expected.value = true →
      ∃ size, metadata.payloadNbytes.number? = some size ∧ AlignTyped runtime size)

/-- **The types that `validate` relies on.** Each is needed when the checks
before its first use pass. -/
structure RawMetadata.WellTyped (metadata : RawMetadata F) : Prop where
  shapes : metadata.hasLayout runtime = true →
    ShapeTyped runtime metadata.logicalShape metadata.blockSize
  worker : metadata.validateShapes runtime = .ok () → WorkerTyped runtime metadata
  dtype : metadata.validateShapes runtime = .ok () → metadata.validateWorker runtime = .ok () →
    ∃ name, metadata.dtype = .text name
  sizes : ∀ dtype, metadata.validateShapes runtime = .ok () →
    metadata.validateWorker runtime = .ok () → metadata.torchDtype = .ok dtype →
    SizesTyped runtime metadata dtype
  signature : ∀ dtype, metadata.validateShapes runtime = .ok () →
    metadata.validateWorker runtime = .ok () → metadata.torchDtype = .ok dtype →
    metadata.validateSizes runtime dtype = .ok () →
    ∃ digest, metadata.signature runtime dtype = .ok digest

/-- A header with the magic, a possible length and the right checksum. -/
structure HeaderIntact (buffer : List Byte) : Prop where
  long : headerSize ≤ buffer.length
  magic : buffer.take 8 = headerMagic
  positive : 0 < headerPayloadLength buffer
  short : headerPayloadLength buffer ≤ maxHeaderPayload
  sum : runtime.crc32 (headerPayload buffer) = headerChecksum buffer

/-- **The condition.** An intact header decodes to JSON or to a JSON error, and
if it is an object with the fields of the metadata, they have the types that the
checks need. -/
structure HeaderTyped (buffer : List Byte) : Prop where
  json : HeaderIntact runtime buffer →
    ∀ kind, runtime.loads (headerPayload buffer) = .error kind →
      kind = .unicodeDecodeError ∨ kind = .jsonDecodeError
  fields : HeaderIntact runtime buffer →
    ∀ entries metadata, runtime.loads (headerPayload buffer) = .ok (.dict entries) →
      RawMetadata.construct entries = .ok metadata → metadata.WellTyped runtime

/-! ### Each part of the checks -/

section Parts

variable {runtime} {metadata : RawMetadata F}

theorem contained_formatError {α : Type} (message : String) :
    Contained (formatError message : Except (Raised BlockFirstFormatError) α) :=
  contained_declared _

/-- A check is contained when the rest is that follows it. -/
theorem contained_unless {α : Type} {condition : Prop} [Decidable condition] {message : String}
    {rest : Except (Raised BlockFirstFormatError) α} :
    Contained (if condition then formatError message else rest) ↔
      (¬ condition → Contained rest) :=
  contained_check

theorem contained_operand {α : Type} {value : Value F}
    {next : Number F → Except (Raised BlockFirstFormatError) α} :
    Contained (builtin value.operand >>= next) ↔
      ∃ number, value.number? = some number ∧ Contained (next number) := by
  simp only [contained_builtin_bind, Value.operand_ok]

theorem contained_rawBlockFirstShape {logicalShape : List (Value F)} {blockSize : Value F} :
    Contained (rawBlockFirstShape runtime logicalShape blockSize) ↔
      ShapeTyped runtime logicalShape blockSize := by
  unfold rawBlockFirstShape
  rw [contained_builtin_bind]
  constructor
  · rintro ⟨shape, converted, contained⟩
    refine ⟨⟨shape, converted⟩, fun numLayers numTokens hiddenDim same layers tokens hidden => ?_⟩
    rw [converted, Except.ok.injEq] at same
    subst same
    have positive : ¬ [2, numLayers, numTokens, hiddenDim].any (· ≤ 0) = true := by
      simp only [List.any_cons, List.any_nil, Bool.or_eq_true, decide_eq_true_eq,
        Bool.false_eq_true, or_false]
      omega
    have rest := contained_operand.mp (contained_unless.mp contained positive)
    obtain ⟨size, found, rest⟩ := rest
    refine ⟨size, found, fun above => ?_⟩
    have rest := contained_builtin_bind.mp (contained_unless.mp rest (by rw [above]; decide))
    obtain ⟨remainder, computed, rest⟩ := rest
    refine ⟨remainder, computed, fun divides => ?_⟩
    have rest := contained_builtin_bind.mp (contained_unless.mp rest (by rw [divides]; decide))
    obtain ⟨count, counted, -⟩ := rest
    exact ⟨count, counted⟩
  · rintro ⟨⟨shape, converted⟩, divides⟩
    refine ⟨shape, converted, ?_⟩
    split
    · rename_i numLayers numTokens hiddenDim
      refine contained_unless.mpr fun positive => contained_operand.mpr ?_
      simp only [List.any_cons, List.any_nil, Bool.or_eq_true, decide_eq_true_eq,
        Bool.false_eq_true, or_false, not_or, not_le] at positive
      obtain ⟨size, found, rest⟩ :=
        divides _ _ _ converted positive.2.1 positive.2.2.1 positive.2.2.2
      refine ⟨size, found, contained_unless.mpr fun above => contained_builtin_bind.mpr ?_⟩
      obtain ⟨remainder, computed, rest⟩ := rest (Bool.eq_false_of_not_eq_true above)
      refine ⟨remainder, computed, contained_unless.mpr fun same => contained_builtin_bind.mpr ?_⟩
      obtain ⟨count, counted⟩ := rest (Bool.eq_true_of_not_eq_false same)
      exact ⟨count, counted, contained_pure _⟩
    · exact contained_formatError _

theorem contained_validateShapes :
    Contained (metadata.validateShapes runtime) ↔
      (metadata.hasLayout runtime = true →
        ShapeTyped runtime metadata.logicalShape metadata.blockSize) := by
  unfold RawMetadata.validateShapes
  rw [contained_unless, Bool.not_eq_false]
  refine forall_congr' fun _ => ?_
  rw [contained_bind, contained_rawBlockFirstShape]
  refine and_iff_left fun expected _ => ?_
  exact contained_unless.mpr fun _ => contained_unless.mpr fun _ => contained_unless.mpr fun _ =>
    contained_unless.mpr fun _ => contained_pure ()

theorem contained_validateWorker :
    Contained (metadata.validateWorker runtime) ↔ WorkerTyped runtime metadata := by
  unfold RawMetadata.validateWorker
  rw [contained_operand]
  simp only [contained_operand]
  constructor
  · rintro ⟨worldSize, found, tensorSize, found', pipelineSize, found'', contained⟩
    refine ⟨worldSize, tensorSize, pipelineSize, found, found', found'', fun positive => ?_⟩
    have rest := contained_operand.mp (contained_unless.mp contained (by rw [positive]; decide))
    obtain ⟨worker, there, -⟩ := rest
    exact ⟨worker, there⟩
  · rintro ⟨worldSize, tensorSize, pipelineSize, found, found', found'', rest⟩
    refine ⟨worldSize, found, tensorSize, found', pipelineSize, found'', ?_⟩
    refine contained_unless.mpr fun positive => contained_operand.mpr ?_
    obtain ⟨worker, there⟩ := rest (Bool.eq_false_of_not_eq_true positive)
    exact ⟨worker, there, contained_unless.mpr fun _ => contained_pure ()⟩

theorem contained_torchDtype :
    Contained metadata.torchDtype ↔ ∃ name, metadata.dtype = .text name := by
  unfold RawMetadata.torchDtype
  split
  · rename_i name same
    exact iff_of_true (contained_declare _) ⟨name, same⟩
  · rename_i other
    exact iff_of_false (not_contained _) fun ⟨name, same⟩ => other name same

theorem contained_rawAlignUp {size : Number F} :
    Contained (rawAlignUp runtime size) ↔ AlignTyped runtime size := by
  unfold rawAlignUp AlignTyped
  rw [contained_unless, Bool.not_eq_true]
  refine forall_congr' fun _ => ?_
  simp only [contained_builtin_bind, contained_builtin, exists_and_left]

theorem contained_validateSizes {dtype : DType} :
    Contained (metadata.validateSizes runtime dtype) ↔ SizesTyped runtime metadata dtype := by
  unfold RawMetadata.validateSizes SizesTyped
  simp only [contained_builtin_bind, contained_unless, Value.operand_ok, exists_and_left,
    Bool.not_eq_false]
  refine exists_congr fun dims => and_congr_right fun _ => exists_congr fun count =>
    and_congr_right fun _ => exists_congr fun expected => and_congr_right fun _ =>
    forall_congr' fun _ => exists_congr fun size => and_congr_right fun _ => ?_
  rw [contained_bind, contained_rawAlignUp]
  exact and_iff_left fun aligned _ => contained_unless.mpr fun _ => contained_pure ()

/-- **`validate` is contained exactly on well-typed fields.** -/
theorem contained_validate :
    Contained (metadata.validate runtime) ↔ metadata.WellTyped runtime := by
  unfold RawMetadata.validate
  constructor
  · intro contained
    obtain ⟨shapes, rest⟩ := contained_bind.mp contained
    have worker passed := contained_bind.mp (rest () passed)
    have dtype passed checked := contained_bind.mp ((worker passed).2 () checked)
    have sizes passed checked dtype' named :=
      contained_bind.mp ((dtype passed checked).2 dtype' named)
    refine ⟨contained_validateShapes.mp shapes,
      fun passed => contained_validateWorker.mp (worker passed).1,
      fun passed checked => contained_torchDtype.mp (dtype passed checked).1,
      fun dtype' passed checked named =>
        contained_validateSizes.mp (sizes passed checked dtype' named).1,
      fun dtype' passed checked named sized => ?_⟩
    obtain ⟨digest, computed, -⟩ :=
      contained_builtin_bind.mp ((sizes passed checked dtype' named).2 () sized)
    exact ⟨digest, computed⟩
  · intro typed
    refine contained_bind.mpr ⟨contained_validateShapes.mpr typed.shapes, fun _ passed => ?_⟩
    refine contained_bind.mpr
      ⟨contained_validateWorker.mpr (typed.worker passed), fun _ checked => ?_⟩
    refine contained_bind.mpr
      ⟨contained_torchDtype.mpr (typed.dtype passed checked), fun dtype named => ?_⟩
    refine contained_bind.mpr
      ⟨contained_validateSizes.mpr (typed.sizes dtype passed checked named), fun _ sized => ?_⟩
    obtain ⟨digest, computed⟩ := typed.signature dtype passed checked named sized
    exact contained_builtin_bind.mpr
      ⟨digest, computed, contained_unless.mpr fun _ => contained_pure ()⟩

end Parts

/-! ### Decoding -/

section Decoding

variable {runtime}

theorem getItem_error {key : String} {value : Value F} {kind : Builtin}
    (raised : value.getItem key = .error kind) : kind = .keyError ∨ kind = .typeError := by
  unfold Value.getItem at raised
  split at raised
  · split at raised
    · cases raised
    · cases raised
      exact .inl rfl
  · cases raised
    exact .inr rfl

theorem items_error {value : Value F} {kind : Builtin} (raised : value.items = .error kind) :
    kind = .typeError := by
  cases value <;> cases raised <;> rfl

/-- `from_mapping` catches what building the metadata raises. -/
theorem construct_error {entries : List (String × Value F)} {kind : Builtin}
    (raised : RawMetadata.construct entries = .error kind) :
    kind = .keyError ∨ kind = .typeError := by
  unfold RawMetadata.construct at raised
  cases shape : (Value.dict entries).getItem "logical_shape" with
  | error other =>
      rw [shape] at raised
      cases raised
      exact getItem_error shape
  | ok value =>
      rw [shape] at raised
      cases items : value.items with
      | error other =>
          rw [Checked.ok_bind, items] at raised
          cases raised
          exact .inr (items_error items)
      | ok logicalShape =>
          rw [Checked.ok_bind, items, Checked.ok_bind] at raised
          cases payload : (Value.dict entries).getItem "payload_shape" with
          | error other =>
              rw [payload] at raised
              cases raised
              exact getItem_error payload
          | ok value =>
              rw [payload] at raised
              cases items : value.items with
              | error other =>
                  rw [Checked.ok_bind, items] at raised
                  cases raised
                  exact .inr (items_error items)
              | ok payloadShape =>
                  rw [Checked.ok_bind, items, Checked.ok_bind] at raised
                  split at raised
                  · cases raised
                  · cases raised
                    exact .inr rfl

theorem contained_fromMapping {entries : List (String × Value F)} :
    Contained (RawMetadata.fromMapping runtime entries) ↔
      ∀ metadata, RawMetadata.construct entries = .ok metadata → metadata.WellTyped runtime := by
  unfold RawMetadata.fromMapping
  rw [contained_bind, contained_translate_builtin]
  constructor
  · rintro ⟨-, rest⟩ metadata built
    have validated := (contained_bind.mp (rest metadata (translate_ok.mpr (builtin_ok.mpr built)))).1
    exact contained_validate.mp validated
  · refine fun typed => ⟨fun kind raised => ?_, fun metadata built => ?_⟩
    · rcases construct_error raised with rfl | rfl <;> rfl
    · have built := builtin_ok.mp (translate_ok.mp built)
      exact contained_bind.mpr
        ⟨contained_validate.mpr (typed metadata built), fun _ _ => contained_pure metadata⟩

/-- **`unpack_block_first_header` is contained exactly under the condition.** -/
theorem contained_unpack {buffer : List Byte} :
    Contained (unpackBlockFirstHeader runtime buffer) ↔ HeaderTyped runtime buffer := by
  unfold unpackBlockFirstHeader
  simp only [contained_unless, contained_bind, contained_translate_builtin, translate_ok,
    builtin_ok, not_lt, not_not, not_or, Nat.pos_iff_ne_zero.symm, Bool.or_eq_true,
    decide_eq_true_eq]
  constructor
  · intro contained
    refine ⟨fun intact => ?_, fun intact entries metadata decoded built => ?_⟩
    · exact (contained intact.long intact.magic ⟨intact.positive, intact.short⟩ intact.sum).1
    · have rest := (contained intact.long intact.magic ⟨intact.positive, intact.short⟩
        intact.sum).2 _ decoded
      exact contained_fromMapping.mp rest metadata built
  · intro typed long magic length sum
    have intact : HeaderIntact runtime buffer := ⟨long, magic, length.1, length.2, sum⟩
    refine ⟨typed.json intact, fun values decoded => ?_⟩
    split
    · rename_i entries
      exact contained_fromMapping.mpr (typed.fields intact entries · decoded)
    · exact contained_formatError _

end Decoding

/-! ### The round trip -/

section RoundTrip

variable {runtime} (metadata : RawMetadata F)

theorem construct_asdict : RawMetadata.construct metadata.asdict = .ok metadata := rfl

theorem fromMapping_asdict {metadata : RawMetadata F}
    (valid : metadata.validate runtime = .ok ()) :
    RawMetadata.fromMapping runtime metadata.asdict = .ok metadata := by
  unfold RawMetadata.fromMapping
  rw [construct_asdict]
  change (metadata.validate runtime >>= fun _ => pure metadata) = _
  rw [valid]
  rfl

variable {payload : List Byte}

theorem length_headerOf (fits : payload.length ≤ maxHeaderPayload) :
    (headerOf runtime payload).length = headerSize := by
  simp only [headerOf, List.length_append, LittleEndian.length_word, List.length_replicate]
  have magic : headerMagic.length = 8 := rfl
  have sizes : maxHeaderPayload = headerSize - 16 := rfl
  have size : headerSize = 4096 := rfl
  omega

theorem headerOf_magic : (headerOf runtime payload).take 8 = headerMagic := by
  simp only [headerOf, List.append_assoc]
  exact List.take_left' rfl

theorem headerOf_length (fits : payload.length ≤ maxHeaderPayload) :
    headerPayloadLength (headerOf runtime payload) = payload.length := by
  have small : payload.length < 256 ^ 4 := lt_of_le_of_lt fits (by decide)
  simp only [headerPayloadLength, headerOf, List.append_assoc]
  rw [List.drop_left' (show headerMagic.length = 8 from rfl),
    List.take_left' (LittleEndian.length_word 4 _),
    LittleEndian.value_word small]

theorem headerOf_checksum : headerChecksum (headerOf runtime payload) = runtime.crc32 payload := by
  have small : runtime.crc32 payload < 256 ^ 4 := runtime.crc32_lt payload
  have front : (headerMagic ++ LittleEndian.word 4 payload.length).length = 12 := by
    rw [List.length_append, LittleEndian.length_word]
    rfl
  simp only [headerChecksum, headerOf, List.append_assoc]
  rw [← List.append_assoc, List.drop_left' front, List.take_left' (LittleEndian.length_word 4 _),
    LittleEndian.value_word small]

theorem headerOf_payload (fits : payload.length ≤ maxHeaderPayload) :
    headerPayload (headerOf runtime payload) = payload := by
  have front : (headerMagic ++ LittleEndian.word 4 payload.length ++
      LittleEndian.word 4 (runtime.crc32 payload)).length = headerPrefixSize := by
    rw [List.length_append, List.length_append, LittleEndian.length_word, LittleEndian.length_word]
    rfl
  rw [headerPayload, headerOf_length fits, headerOf, List.append_assoc, List.drop_left' front,
    List.take_left' rfl]

/-- A header around a payload is decoded as the payload is. -/
theorem unpack_headerOf (nonempty : payload ≠ []) (fits : payload.length ≤ maxHeaderPayload)
    {entries : List (String × Value F)} (decoded : runtime.loads payload = .ok (.dict entries)) :
    unpackBlockFirstHeader runtime (headerOf runtime payload) =
      RawMetadata.fromMapping runtime entries := by
  have long : ¬ (headerOf runtime payload).length < headerSize :=
    not_lt.mpr (length_headerOf fits).ge
  have positive : payload.length ≠ 0 := fun empty => nonempty (List.length_eq_zero_iff.mp empty)
  unfold unpackBlockFirstHeader
  rw [if_neg long, headerOf_magic, if_neg (not_not.mpr rfl), headerOf_length fits,
    if_neg (not_or.mpr ⟨positive, not_lt.mpr fits⟩), headerOf_payload fits, headerOf_checksum,
    if_neg (not_not.mpr rfl), decoded]
  rfl

/-- Metadata that passes its own validation and fits is packed. -/
theorem pack_of_valid {metadata : RawMetadata F} (valid : metadata.validate runtime = .ok ())
    (form : runtime.dumps (.dict metadata.asdict) = .ok payload)
    (fits : payload.length ≤ maxHeaderPayload) :
    packBlockFirstHeader runtime metadata = .ok (headerOf runtime payload) := by
  unfold packBlockFirstHeader
  rw [valid, form]
  exact if_neg (not_lt.mpr fits)

/-- What packing says about the metadata and the header. -/
theorem pack_ok {metadata : RawMetadata F} {header : List Byte}
    (packed : packBlockFirstHeader runtime metadata = .ok header) :
    metadata.validate runtime = .ok () ∧ ∃ payload,
      runtime.dumps (.dict metadata.asdict) = .ok payload ∧ payload.length ≤ maxHeaderPayload ∧
      header = headerOf runtime payload := by
  unfold packBlockFirstHeader formatError at packed
  simp only [Checked.bind_ok, builtin_ok, Checked.check_ok, Checked.return_ok, not_lt] at packed
  obtain ⟨_, valid, payload, form, fits, rfl⟩ := packed
  exact ⟨valid, payload, form, fits, rfl⟩

theorem unpack_headerOf_asdict {metadata : RawMetadata F}
    (valid : metadata.validate runtime = .ok ())
    (form : runtime.dumps (.dict metadata.asdict) = .ok payload)
    (fits : payload.length ≤ maxHeaderPayload) :
    unpackBlockFirstHeader runtime (headerOf runtime payload) = .ok metadata := by
  rw [unpack_headerOf (runtime.dumps_nonempty _ _ form) fits (runtime.loads_dumps _ _ form),
    fromMapping_asdict valid]

/-- The buffers that are decoded to a metadata value. -/
theorem unpack_ok {buffer : List Byte} {metadata : RawMetadata F} :
    unpackBlockFirstHeader runtime buffer = .ok metadata ↔
      HeaderIntact runtime buffer ∧
        (∃ entries, runtime.loads (headerPayload buffer) = .ok (.dict entries) ∧
          RawMetadata.construct entries = .ok metadata) ∧
        metadata.validate runtime = .ok () := by
  unfold unpackBlockFirstHeader formatError
  simp only [Checked.check_ok, Checked.bind_ok, translate_ok, builtin_ok, not_not]
  constructor
  · rintro ⟨long, magic, length, sum, values, decoded, rest⟩
    rw [not_or, not_lt] at length
    split at rest
    · rename_i entries
      unfold RawMetadata.fromMapping at rest
      simp only [Checked.bind_ok, Checked.return_ok, translate_ok, builtin_ok] at rest
      obtain ⟨built, constructed, ⟨⟩, valid, rfl⟩ := rest
      exact ⟨⟨not_lt.mp long, magic, Nat.pos_of_ne_zero length.1, length.2, sum⟩,
        ⟨entries, decoded, constructed⟩, valid⟩
    · cases rest
  · rintro ⟨intact, ⟨entries, decoded, built⟩, valid⟩
    have length : ¬ (headerPayloadLength buffer = 0 ∨
        maxHeaderPayload < headerPayloadLength buffer) :=
      not_or.mpr ⟨intact.positive.ne', not_lt.mpr intact.short⟩
    refine ⟨not_lt.mpr intact.long, intact.magic, length, intact.sum, _, decoded, ?_⟩
    simp only [RawMetadata.fromMapping, Checked.bind_ok, Checked.return_ok, translate_ok,
      builtin_ok]
    exact ⟨metadata, built, (), valid, rfl⟩

end RoundTrip

/-! ### The codec -/

/-- **The property of the codec.** The metadata is packed into one header that is
unpacked to it, and a buffer with the magic is refused, or decoded to metadata
whose JSON has the recorded checksum. -/
structure CodecSound (metadata : RawMetadata F) (buffer : List Byte) : Prop where
  roundTrip : ∃ header, packBlockFirstHeader runtime metadata = .ok header ∧
    header.length = headerSize ∧ unpackBlockFirstHeader runtime header = .ok metadata
  changed : buffer.take 8 = headerMagic →
    (∃ error, unpackBlockFirstHeader runtime buffer = .error (.declared error)) ∨
      ∃ other entries, unpackBlockFirstHeader runtime buffer = .ok other ∧
        runtime.crc32 (headerPayload buffer) = headerChecksum buffer ∧
        runtime.loads (headerPayload buffer) = .ok (.dict entries) ∧
        RawMetadata.construct entries = .ok other

/-- One step of `zlib.crc32`, for the lowest bit. -/
def crcBit (crc : UInt32) : UInt32 :=
  if crc &&& 1 = 1 then (crc >>> 1) ^^^ 0xEDB88320 else crc >>> 1

/-- `zlib.crc32`. -/
def zlibCrc32 (bytes : List Byte) : ℕ :=
  ((bytes.foldl (fun crc byte => crcBit^[8] (crc ^^^ byte.toUInt32)) 0xFFFFFFFF) ^^^
    0xFFFFFFFF).toNat

example : zlibCrc32 [0x31, 0x32, 0x33, 0x34, 0x35, 0x36, 0x37, 0x38, 0x39] = 0xCBF43926 := by
  decide +kernel

def asciiBytes (text : Text) : List Byte := text.map fun char => UInt8.ofNat char.toNat

/-- A runtime that knows some JSON texts, and one digest. -/
def HeaderRuntime.ofTable (table : List (List Byte × Value Empty)) (digest : String)
    (distinct : (table.map fun entry => entry.1.length).Nodup)
    (nonempty : ∀ entry ∈ table, entry.1 ≠ []) : HeaderRuntime Empty where
  floats :=
    { toInt := Empty.elim
      le := fun _ _ => false
      lt := fun _ _ => false
      eq := fun _ _ => false
      add := fun _ _ => .error .overflowError
      sub := fun _ _ => .error .overflowError
      mul := fun _ _ => .error .overflowError
      mod := fun _ _ => .error .overflowError
      floorDiv := fun _ _ => .error .overflowError
      intOfText := fun _ => .error .valueError }
  loads := fun bytes =>
    match table.find? fun entry => entry.1 = bytes with
    | some entry => .ok entry.2
    | none => .error .jsonDecodeError
  dumps := fun value =>
    match table.find? fun entry => entry.2 = value with
    | some entry => .ok entry.1
    | none => .error .recursionError
  crc32 := zlibCrc32
  sha256 := fun _ => digest
  str := fun _ => ""
  tupleText := fun _ => ""
  describe := fun _ => ""
  loads_dumps := by
    intro value bytes dumped
    have unique (first second : List Byte × Value Empty) (here : first ∈ table)
        (there : second ∈ table) (same : first.1 = second.1) : first = second :=
      List.inj_on_of_nodup_map distinct here there (congrArg List.length same)
    split at dumped
    · rename_i entry found
      cases dumped
      have member := List.mem_of_find?_eq_some found
      have is := List.find?_some found
      simp only [decide_eq_true_eq] at is
      cases first : table.find? fun other => other.1 = entry.1 with
      | none => exact absurd (decide_eq_true rfl) (List.find?_eq_none.mp first entry member)
      | some other =>
          have same := List.find?_some first
          simp only [decide_eq_true_eq] at same
          simp only [unique other entry (List.mem_of_find?_eq_some first) member same, is]
    · cases dumped
  dumps_nonempty := by
    intro value bytes dumped
    split at dumped
    · rename_i entry found
      cases dumped
      exact nonempty entry (List.mem_of_find?_eq_some found)
    · cases dumped
  crc32_lt := fun bytes => UInt32.toNat_lt _

/-- The metadata of a chunk of two tokens in one layer, one byte each. -/
def smallMetadata : RawMetadata Empty where
  layout := .text "block_first_v1"
  version := .int 1
  logicalShape := [.int 2, .int 1, .int 2, .int 1]
  payloadShape := [.int 1, .int 1, .int 2, .int 2, .int 1]
  dtype := .text "uint8"
  validTokens := .int 2
  numLayers := .int 1
  blockSize := .int 2
  hiddenDim := .int 1
  payloadNbytes := .int 4
  ioNbytes := .int 4096
  modelName := .text "m"
  worldSize := .int 1
  workerId := .int 0
  tensorParallelSize := .int 1
  pipelineParallelSize := .int 1
  layoutSignature := .text "86696b6621d7832c638a356b46deb4edfa9104b1fe189f91f5012d85cd920531"

/-- The metadata with `null` in the place of the token count. -/
def nullMetadata : RawMetadata Empty :=
  { smallMetadata with logicalShape := [.int 2, .int 1, .none, .int 1] }

/-- The JSON of the fields of its signature. -/
def smallFieldsJson : List Byte :=
  asciiBytes
    ['{', '"', 'b', 'l', 'o', 'c', 'k', '_', 's', 'i', 'z', 'e', '"', ':', '2', ',', '"', 'd', 't',
     'y', 'p', 'e', '"', ':', '"', 'u', 'i', 'n', 't', '8', '"', ',', '"', 'h', 'i', 'd', 'd', 'e',
     'n', '_', 'd', 'i', 'm', '"', ':', '1', ',', '"', 'l', 'a', 'y', 'o', 'u', 't', '"', ':', '"',
     'b', 'l', 'o', 'c', 'k', '_', 'f', 'i', 'r', 's', 't', '_', 'v', '1', '"', ',', '"', 'm', 'o',
     'd', 'e', 'l', '_', 'n', 'a', 'm', 'e', '"', ':', '"', 'm', '"', ',', '"', 'n', 'u', 'm', '_',
     'l', 'a', 'y', 'e', 'r', 's', '"', ':', '1', ',', '"', 'p', 'i', 'p', 'e', 'l', 'i', 'n', 'e',
     '_', 'p', 'a', 'r', 'a', 'l', 'l', 'e', 'l', '_', 's', 'i', 'z', 'e', '"', ':', '1', ',', '"',
     't', 'e', 'n', 's', 'o', 'r', '_', 'p', 'a', 'r', 'a', 'l', 'l', 'e', 'l', '_', 's', 'i', 'z',
     'e', '"', ':', '1', ',', '"', 'w', 'o', 'r', 'k', 'e', 'r', '_', 'i', 'd', '"', ':', '0', ',',
     '"', 'w', 'o', 'r', 'l', 'd', '_', 's', 'i', 'z', 'e', '"', ':', '1', '}']

/-- The JSON of the metadata, with the text of its token count. -/
def smallMetadataJson (tokens : Text) : List Byte :=
  asciiBytes (
    ['{', '"', 'b', 'l', 'o', 'c', 'k', '_', 's', 'i', 'z', 'e', '"', ':', '2', ',', '"', 'd', 't',
     'y', 'p', 'e', '"', ':', '"', 'u', 'i', 'n', 't', '8', '"', ',', '"', 'h', 'i', 'd', 'd', 'e',
     'n', '_', 'd', 'i', 'm', '"', ':', '1', ',', '"', 'i', 'o', '_', 'n', 'b', 'y', 't', 'e', 's',
     '"', ':', '4', '0', '9', '6', ',', '"', 'l', 'a', 'y', 'o', 'u', 't', '"', ':', '"', 'b', 'l',
     'o', 'c', 'k', '_', 'f', 'i', 'r', 's', 't', '_', 'v', '1', '"', ',', '"', 'l', 'a', 'y', 'o',
     'u', 't', '_', 's', 'i', 'g', 'n', 'a', 't', 'u', 'r', 'e', '"', ':', '"', '8', '6', '6', '9',
     '6', 'b', '6', '6', '2', '1', 'd', '7', '8', '3', '2', 'c', '6', '3', '8', 'a', '3', '5', '6',
     'b', '4', '6', 'd', 'e', 'b', '4', 'e', 'd', 'f', 'a', '9', '1', '0', '4', 'b', '1', 'f', 'e',
     '1', '8', '9', 'f', '9', '1', 'f', '5', '0', '1', '2', 'd', '8', '5', 'c', 'd', '9', '2', '0',
     '5', '3', '1', '"', ',', '"', 'l', 'o', 'g', 'i', 'c', 'a', 'l', '_', 's', 'h', 'a', 'p', 'e',
     '"', ':', '[', '2', ',', '1', ','] ++
    tokens ++
    [',', '1', ']', ',', '"', 'm', 'o', 'd', 'e', 'l', '_', 'n', 'a', 'm', 'e', '"', ':', '"', 'm',
     '"', ',', '"', 'n', 'u', 'm', '_', 'l', 'a', 'y', 'e', 'r', 's', '"', ':', '1', ',', '"', 'p',
     'a', 'y', 'l', 'o', 'a', 'd', '_', 'n', 'b', 'y', 't', 'e', 's', '"', ':', '4', ',', '"', 'p',
     'a', 'y', 'l', 'o', 'a', 'd', '_', 's', 'h', 'a', 'p', 'e', '"', ':', '[', '1', ',', '1', ',',
     '2', ',', '2', ',', '1', ']', ',', '"', 'p', 'i', 'p', 'e', 'l', 'i', 'n', 'e', '_', 'p', 'a',
     'r', 'a', 'l', 'l', 'e', 'l', '_', 's', 'i', 'z', 'e', '"', ':', '1', ',', '"', 't', 'e', 'n',
     's', 'o', 'r', '_', 'p', 'a', 'r', 'a', 'l', 'l', 'e', 'l', '_', 's', 'i', 'z', 'e', '"', ':',
     '1', ',', '"', 'v', 'a', 'l', 'i', 'd', '_', 't', 'o', 'k', 'e', 'n', 's', '"', ':', '2', ',',
     '"', 'v', 'e', 'r', 's', 'i', 'o', 'n', '"', ':', '1', ',', '"', 'w', 'o', 'r', 'k', 'e', 'r',
     '_', 'i', 'd', '"', ':', '0', ',', '"', 'w', 'o', 'r', 'l', 'd', '_', 's', 'i', 'z', 'e', '"',
     ':', '1', '}'])

def smallTable : List (List Byte × Value Empty) :=
  [(smallFieldsJson, smallMetadata.layoutFields .uint8),
    (smallMetadataJson ['2'], .dict smallMetadata.asdict),
    (smallMetadataJson ['n', 'u', 'l', 'l'], .dict nullMetadata.asdict)]

def smallRuntime : HeaderRuntime Empty := .ofTable smallTable
  "86696b6621d7832c638a356b46deb4edfa9104b1fe189f91f5012d85cd920531" (by decide +kernel)
  (by decide +kernel)

theorem smallMetadata_valid : smallMetadata.validate smallRuntime = .ok () := by decide +kernel

theorem smallMetadata_form :
    smallRuntime.dumps (.dict smallMetadata.asdict) = .ok (smallMetadataJson ['2']) := by
  decide +kernel

/-- The header with the token count replaced by `null`, and the checksum of that. -/
def nullHeader : List Byte := headerOf smallRuntime (smallMetadataJson ['n', 'u', 'l', 'l'])

theorem unpack_nullHeader :
    unpackBlockFirstHeader smallRuntime nullHeader = .error (.builtin .typeError) := by
  have decoded : smallRuntime.loads (smallMetadataJson ['n', 'u', 'l', 'l']) =
      .ok (.dict nullMetadata.asdict) := by decide +kernel
  rw [nullHeader, unpack_headerOf (by decide +kernel) (by decide +kernel) decoded]
  rfl

end LMCacheHcu.Storage
