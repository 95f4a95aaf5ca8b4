import LMCacheHcu.Engine.ProcessTokens
import LMCacheHcu.Foundation.Collective

/-! # Retrieving on the first rank only

With `save_only_first_rank` one rank processes the tokens of a retrieve and
broadcasts the memory objects that it got: a count, and for each object its token
range with the metadata, then its bytes. The passive ranks fill their mask and
their chunks from what they receive. All ranks are called with the same tokens.
-/

namespace LMCacheHcu.Broadcast

open LMCacheHcu.Engine LMCacheHcu.Collective

/-- The metadata of memory objects, which is not part of the repository: a
dictionary keeps what the size is computed from. -/
structure MetadataFormat (Metadata Dict : Type) where
  getSize : Metadata → ℕ
  toDict : Metadata → Dict
  fromDict : Dict → Metadata
  getSize_fromDict (metadata : Metadata) : getSize (fromDict (toDict metadata)) = getSize metadata

variable {Metadata Dict Key Failure : Type}

/-- A memory object whose raw tensor has the size that its metadata says. -/
structure MemoryObj (format : MetadataFormat Metadata Dict) where
  metadata : Metadata
  rawTensor : List UInt8
  sized : rawTensor.length = format.getSize metadata

/-- The objects that `broadcast_object_fn` carries. -/
inductive BroadcastObject (Dict : Type)
  | none
  | chunkCount (count : ℕ)
  | combinedMetadata (start stop : ℕ) (metadataDict : Dict)

/-- What the token processing of the first rank hands back. -/
structure Processed (Key Obj : Type) where
  retMask : List Bool
  reorderedChunks : List (ProcessedChunk Key Obj)

/-- What a retrieve leaves on a rank: its mask, and the chunks it holds with
their token ranges and bytes. -/
structure RankResult where
  retMask : List Bool
  chunks : List (ℕ × ℕ × List UInt8)
deriving DecidableEq

/-- How a retrieve ends that raises: in the token processing, or at a received
object of another kind. -/
inductive RankError
  | processing
  | typeError
deriving DecidableEq

abbrev RankOutcome := Except RankError RankResult

/-- The first rank of a call: its health, and what its token processing does. -/
structure FirstRank (format : MetadataFormat Metadata Dict) (Key Failure : Type) where
  healthy : Bool
  processing : Except Failure (Processed Key (MemoryObj format))

section Programs

variable (format : MetadataFormat Metadata Dict)

/-- The broadcasts of one chunk. -/
def chunkMessages (chunk : ProcessedChunk Key (MemoryObj format)) :
    List (Message (BroadcastObject Dict)) :=
  [.object (.combinedMetadata chunk.start chunk.stop (format.toDict chunk.memoryObj.metadata)),
    .tensor chunk.memoryObj.rawTensor]

/-- `_broadcast_or_receive_memory_objs` on the first rank. -/
def broadcastMemoryObjs (chunks : List (ProcessedChunk Key (MemoryObj format))) :
    List (Message (BroadcastObject Dict)) :=
  .object (.chunkCount chunks.length) :: chunks.flatMap (chunkMessages format)

/-- The loop of a passive rank over the announced chunks. -/
def receiveChunks : ℕ → List Bool → List (ℕ × ℕ × List UInt8) →
    Receiver (BroadcastObject Dict) RankOutcome
  | 0, retMask, chunks => .done (.ok ⟨retMask, chunks⟩)
  | count + 1, retMask, chunks =>
      .object fun
        | .none => .done (.ok ⟨retMask, chunks⟩)
        | .chunkCount _ => .done (.error .typeError)
        | .combinedMetadata start stop metadataDict =>
            .tensor (format.getSize (format.fromDict metadataDict)) fun rawTensor =>
              receiveChunks count (RangeMask.fillRange retMask start stop true)
                (chunks ++ [(start, stop, rawTensor)])

/-- `_broadcast_or_receive_memory_objs` on a passive rank. -/
def receiveMemoryObjs (retMask : List Bool) : Receiver (BroadcastObject Dict) RankOutcome :=
  .object fun
    | .none => .done (.ok ⟨retMask, []⟩)
    | .chunkCount count => receiveChunks format count retMask []
    | .combinedMetadata .. => .done (.error .typeError)

/-- `retrieve` on a passive rank. -/
def passiveRetrieve (numTokens : ℕ) (healthy : Bool) :
    Receiver (BroadcastObject Dict) RankOutcome :=
  if healthy then receiveMemoryObjs format (List.replicate numTokens false)
  else .done (.ok ⟨List.replicate numTokens false, []⟩)

end Programs

variable {format : MetadataFormat Metadata Dict}

/-- A chunk as a rank holds it. -/
def heldChunk (chunk : ProcessedChunk Key (MemoryObj format)) : ℕ × ℕ × List UInt8 :=
  (chunk.start, chunk.stop, chunk.memoryObj.rawTensor)

/-- The broadcasts of `retrieve` on the first rank: none when it is unhealthy or
its token processing raises. -/
def FirstRank.broadcasts (first : FirstRank format Key Failure) :
    List (Message (BroadcastObject Dict)) :=
  if first.healthy then
    match first.processing with
    | .ok processed => broadcastMemoryObjs format processed.reorderedChunks
    | .error _ => []
  else []

/-- `retrieve` on the first rank. -/
def FirstRank.outcome (numTokens : ℕ) (first : FirstRank format Key Failure) : RankOutcome :=
  if first.healthy then
    match first.processing with
    | .ok processed => .ok ⟨processed.retMask, processed.reorderedChunks.map heldChunk⟩
    | .error _ => .error .processing
  else .ok ⟨List.replicate numTokens false, []⟩

/-- The mask that a passive rank makes of the received token ranges. -/
def markChunks {Obj : Type} (retMask : List Bool) (chunks : List (ProcessedChunk Key Obj)) :
    List Bool :=
  chunks.foldl (fun mask chunk => RangeMask.fillRange mask chunk.start chunk.stop true) retMask

/-! ### Passive ranks -/

/-- **A passive rank receives what the first rank sends**, and holds it. -/
theorem consume_receiveChunks (chunks : List (ProcessedChunk Key (MemoryObj format)))
    (retMask : List Bool) (held : List (ℕ × ℕ × List UInt8)) :
    (receiveChunks format chunks.length retMask held).consume
        (chunks.flatMap (chunkMessages format)) =
      some (.ok ⟨markChunks retMask chunks, held ++ chunks.map heldChunk⟩) := by
  induction chunks generalizing retMask held with
  | nil => simp [receiveChunks, Receiver.consume, markChunks]
  | cons chunk chunks ih =>
      have sized : chunk.memoryObj.rawTensor.length =
          format.getSize (format.fromDict (format.toDict chunk.memoryObj.metadata)) := by
        rw [format.getSize_fromDict, chunk.memoryObj.sized]
      rw [List.length_cons, List.flatMap_cons, chunkMessages, receiveChunks]
      simp only [List.cons_append, List.nil_append, Receiver.consume, Receiver.accept, sized,
        ↓reduceIte, ih]
      rw [List.append_assoc, List.map_cons, List.singleton_append]
      rfl

theorem consume_receiveMemoryObjs (chunks : List (ProcessedChunk Key (MemoryObj format)))
    (retMask : List Bool) :
    (receiveMemoryObjs format retMask).consume (broadcastMemoryObjs format chunks) =
      some (.ok ⟨markChunks retMask chunks, chunks.map heldChunk⟩) := by
  rw [receiveMemoryObjs, broadcastMemoryObjs]
  simp only [Receiver.consume, Receiver.accept]
  exact consume_receiveChunks chunks retMask []

end LMCacheHcu.Broadcast
