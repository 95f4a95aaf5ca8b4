import LMCacheHcu.Foundation.StridedView
import LMCacheHcu.Kernels.MultiLayer

/-! # The bytes that the transfer kernels move

A launch as the list of the copies of its threads, each between an address of
the memory object and one of the paged cache. The threads of a launch run in no
particular order; what a launch moves is read off the list as the set of pairs
of addresses that it joins.
-/

namespace LMCacheHcu.Kernels

open RowMajor ByteCopy Storage

/-- `TransferDirection`. -/
inductive TransferDirection
  | h2d
  | d2h
deriving DecidableEq, Repr

namespace TransferDirection

/-- The copy of one thread between a memory object and a paged cache. -/
def copy (direction : TransferDirection) (object cache : ℤ) (size : ℕ) : Copy :=
  match direction with
  | h2d => ⟨object, cache, size⟩
  | d2h => ⟨cache, object, size⟩

/-- The direction moves a byte of the one to the byte of the other. -/
def Joins (direction : TransferDirection) (object cache origin address : ℤ) : Prop :=
  match direction with
  | h2d => origin = object ∧ address = cache
  | d2h => origin = cache ∧ address = object

/-- The bytes of one copy. -/
theorem copy_moves (direction : TransferDirection) (object cache : ℤ) (size : ℕ)
    (origin address : ℤ) :
    (direction.copy object cache size).Covers address ∧
        (direction.copy object cache size).origin address = origin ↔
      ∃ byte < size,
        direction.Joins (object + (byte : ℤ)) (cache + (byte : ℤ)) origin address := by
  simp only [Copy.Covers, Copy.origin]
  cases direction with
  | h2d =>
      simp only [copy, Joins]
      constructor
      · rintro ⟨⟨above, below⟩, rfl⟩
        exact ⟨(address - cache).toNat, by omega, by omega, by omega⟩
      · rintro ⟨byte, inside, rfl, rfl⟩
        exact ⟨⟨by omega, by omega⟩, by omega⟩
  | d2h =>
      simp only [copy, Joins]
      constructor
      · rintro ⟨⟨above, below⟩, rfl⟩
        exact ⟨(address - object).toNat, by omega, by omega, by omega⟩
      · rintro ⟨byte, inside, rfl, rfl⟩
        exact ⟨⟨by omega, by omega⟩, by omega⟩

/-- The bytes of `count` words in a row. -/
theorem moves_words (direction : TransferDirection) (object cache : ℤ) (count size : ℕ)
    (origin address : ℤ) :
    Moves ((List.range count).map fun word => direction.copy (object + ((word * size : ℕ) : ℤ))
        (cache + ((word * size : ℕ) : ℤ)) size) origin address ↔
      ∃ byte < count * size,
        direction.Joins (object + (byte : ℤ)) (cache + (byte : ℤ)) origin address := by
  have place (base : ℤ) (word low : ℕ) :
      base + ((word * size : ℕ) : ℤ) + (low : ℤ) = base + ((word * size + low : ℕ) : ℤ) := by
    omega
  simp only [moves_map, List.mem_range, copy_moves, place]
  constructor
  · rintro ⟨word, wordIn, low, lowIn, joins⟩
    exact ⟨_, digit_lt wordIn lowIn, joins⟩
  · rintro ⟨byte, inside, joins⟩
    obtain ⟨word, low, wordIn, lowIn, rfl⟩ := exists_digit inside
    exact ⟨word, wordIn, low, lowIn, joins⟩

end TransferDirection

/-! ### Grids -/

/-- The copies of a grid of blocks, when the steps of all of them are defined. -/
def launchGrid {ρ : Type} (blocks : List ρ) (block : ρ → Option (List Copy)) :
    Option (List Copy) :=
  (blocks.mapM block).map List.flatten

/-- The blocks of a defined grid are defined, and it moves what they move. -/
theorem launchGrid_moves {ρ : Type} {blocks : List ρ} {block : ρ → Option (List Copy)}
    {copies : List Copy} (launched : launchGrid blocks block = some copies) :
    (∀ each ∈ blocks, ∃ inner, block each = some inner) ∧
      ∀ origin address, Moves copies origin address ↔
        ∃ each ∈ blocks, ∃ inner, block each = some inner ∧ Moves inner origin address := by
  induction blocks generalizing copies with
  | nil =>
      obtain rfl : [] = copies := Option.some.inj launched
      simp
  | cons first rest ih =>
      obtain ⟨results, run, rfl⟩ := Option.map_eq_some_iff.mp launched
      rw [List.mapM_cons, Option.bind_eq_bind, Option.bind_eq_some_iff] at run
      obtain ⟨inner, here, run⟩ := run
      rw [Option.bind_eq_bind, Option.bind_eq_some_iff] at run
      obtain ⟨others, there, same⟩ := run
      obtain rfl := Option.some.inj same
      obtain ⟨defined, moves⟩ := ih (Option.map_eq_some_iff.mpr ⟨others, there, rfl⟩)
      refine ⟨List.forall_mem_cons.mpr ⟨⟨inner, here⟩, defined⟩, fun origin address => ?_⟩
      rw [List.flatten_cons, moves_append, moves]
      simp only [List.mem_cons, exists_eq_or_imp, here, Option.some.injEq, exists_eq_left']

/-- A grid is defined when its blocks are. -/
theorem exists_launchGrid {ρ : Type} {blocks : List ρ} {block : ρ → Option (List Copy)}
    (defined : ∀ each ∈ blocks, ∃ inner, block each = some inner) :
    ∃ copies, launchGrid blocks block = some copies := by
  induction blocks with
  | nil => exact ⟨[], rfl⟩
  | cons first rest ih =>
      obtain ⟨inner, here⟩ := defined first (List.mem_cons_self ..)
      obtain ⟨copies, later⟩ := ih fun each member => defined each (List.mem_cons_of_mem _ member)
      obtain ⟨results, run, rfl⟩ := Option.map_eq_some_iff.mp later
      refine ⟨inner ++ results.flatten, ?_⟩
      rw [launchGrid, List.mapM_cons, here, run]
      rfl

/-- The block of a token: nothing for a negative slot. A slot mapping that is too
short leaves the block undefined. -/
def tokenBlock (slots : List ℤ) (token : ℕ) (row : ℤ → Option (List Copy)) :
    Option (List Copy) :=
  match slots[token]? with
  | none => none
  | some slot => if slot < 0 then some [] else row slot

/-- The block of a token is defined when its row is, should it have a slot. -/
theorem exists_tokenBlock {slots : List ℤ} {token : ℕ} (inside : token < slots.length)
    {row : ℤ → Option (List Copy)} :
    (∃ copies, tokenBlock slots token row = some copies) ↔
      ∀ slot : ℕ, slots[token]? = some (slot : ℤ) → ∃ copies, row slot = some copies := by
  have there : slots[token]? = some slots[token] := List.getElem?_eq_getElem inside
  unfold tokenBlock
  rw [there]
  by_cases negative : slots[token] < 0
  · refine ⟨fun _ slot here => ?_, fun _ => ⟨[], if_pos negative⟩⟩
    rw [Option.some.injEq] at here
    omega
  · obtain ⟨place, same⟩ := Int.eq_ofNat_of_zero_le (Int.not_lt.mp negative)
    simp only [if_neg negative]
    rw [same]
    refine ⟨fun defined slot here => ?_, fun defined => defined place rfl⟩
    rw [Option.some.injEq] at here
    rwa [← here]

/-- The block of a token with a slot copies its row, another block copies nothing. -/
theorem tokenBlock_moves {slots : List ℤ} {token : ℕ} {row : ℤ → Option (List Copy)}
    {copies : List Copy} (run : tokenBlock slots token row = some copies) (origin address : ℤ) :
    Moves copies origin address ↔
      ∃ slot : ℕ, slots[token]? = some (slot : ℤ) ∧
        ∃ inner, row slot = some inner ∧ Moves inner origin address := by
  unfold tokenBlock at run
  split at run
  · cases run
  · rename_i slot there
    split at run
    · rename_i negative
      obtain rfl := Option.some.inj run
      refine ⟨fun moved => absurd moved (not_moves_nil _ _), ?_⟩
      rintro ⟨place, here, _⟩
      rw [there, Option.some.injEq] at here
      omega
    · rename_i natural
      obtain ⟨place, rfl⟩ := Int.eq_ofNat_of_zero_le (Int.not_lt.mp natural)
      refine ⟨fun moved => ⟨place, there, copies, run, moved⟩, ?_⟩
      rintro ⟨other, here, inner, same, moved⟩
      rw [there, Option.some.injEq] at here
      rw [← here, run] at same
      rwa [Option.some.inj same]

/-- The token is not skipped, and its slot is not negative. -/
def Mapped (slots : List ℤ) (skipPrefixNTokens token slot : ℕ) : Prop :=
  skipPrefixNTokens ≤ token ∧ slots[token]? = some (slot : ℤ)

section Tokens

variable {halves layers skipPrefixNTokens : ℕ} {slots : List ℤ}
  {block : ℕ → ℕ → ℕ → ℤ → Option (List Copy)} {copies : List Copy}

theorem Mapped.token_lt {token slot : ℕ} (mapped : Mapped slots skipPrefixNTokens token slot) :
    token < slots.length :=
  (List.getElem?_eq_some_iff.mp mapped.2).1

variable (skipPrefixNTokens) in
/-- A grid over the tokens after a prefix is defined when the rows of the mapped
tokens are. -/
theorem exists_launchGrid_tokens :
    (∃ copies, launchGrid (List.range halves ×ˢ List.range layers ×ˢ
        List.range (slots.length - skipPrefixNTokens)) (fun place =>
          tokenBlock slots (place.2.2 + skipPrefixNTokens)
            (block place.1 place.2.1 (place.2.2 + skipPrefixNTokens))) = some copies) ↔
      ∀ kOrV layer token slot : ℕ, kOrV < halves → layer < layers →
        Mapped slots skipPrefixNTokens token slot →
        ∃ inner, block kOrV layer token slot = some inner := by
  constructor
  · rintro ⟨copies, launched⟩ kOrV layer token slot half layerIn mapped
    have inside := mapped.token_lt
    have back : token - skipPrefixNTokens + skipPrefixNTokens = token :=
      Nat.sub_add_cancel mapped.1
    have there := (launchGrid_moves launched).1 (kOrV, layer, token - skipPrefixNTokens) (by
      simp only [List.mem_product, List.mem_range]
      exact ⟨half, layerIn, by omega⟩)
    dsimp only at there
    rw [back, exists_tokenBlock inside] at there
    exact there slot mapped.2
  · intro defined
    refine exists_launchGrid fun ⟨kOrV, layer, token⟩ member => ?_
    simp only [List.mem_product, List.mem_range] at member
    have inside : token + skipPrefixNTokens < slots.length := by omega
    rw [exists_tokenBlock inside]
    exact fun slot here => defined _ _ _ slot member.1 member.2.1 ⟨Nat.le_add_left _ _, here⟩

/-- Such a grid moves what the rows of the mapped tokens move. -/
theorem launchGrid_tokens_moves
    (launched : launchGrid (List.range halves ×ˢ List.range layers ×ˢ
        List.range (slots.length - skipPrefixNTokens)) (fun place =>
          tokenBlock slots (place.2.2 + skipPrefixNTokens)
            (block place.1 place.2.1 (place.2.2 + skipPrefixNTokens))) = some copies)
    (origin address : ℤ) :
    Moves copies origin address ↔
      ∃ kOrV layer token slot : ℕ, kOrV < halves ∧ layer < layers ∧
        Mapped slots skipPrefixNTokens token slot ∧
        ∃ inner, block kOrV layer token slot = some inner ∧ Moves inner origin address := by
  rw [(launchGrid_moves launched).2]
  constructor
  · rintro ⟨⟨kOrV, layer, token⟩, member, inner, run, moved⟩
    simp only [List.mem_product, List.mem_range] at member
    obtain ⟨slot, here, row⟩ := (tokenBlock_moves run origin address).mp moved
    exact ⟨_, _, _, slot, member.1, member.2.1, ⟨Nat.le_add_left _ _, here⟩, row⟩
  · rintro ⟨kOrV, layer, token, slot, half, layerIn, mapped, inner, run, moved⟩
    have inside := mapped.token_lt
    have back : token - skipPrefixNTokens + skipPrefixNTokens = token :=
      Nat.sub_add_cancel mapped.1
    have member : (kOrV, layer, token - skipPrefixNTokens) ∈ List.range halves ×ˢ
        List.range layers ×ˢ List.range (slots.length - skipPrefixNTokens) := by
      simp only [List.mem_product, List.mem_range]
      exact ⟨half, layerIn, by omega⟩
    obtain ⟨copied, there⟩ := (launchGrid_moves launched).1 _ member
    refine ⟨_, member, copied, there, ?_⟩
    dsimp only at there
    rw [back] at there
    exact (tokenBlock_moves there origin address).mpr ⟨slot, mapped.2, inner, run, moved⟩

end Tokens

/-! ### The kernels -/

namespace MultiLayerLaunch

variable (launch : MultiLayerLaunch)

/-- The threads of one block of `load_and_reshape_multi_layer_kernel`. -/
def rowCopies (table : List ℤ) (keyValue : ℤ) (direction : TransferDirection)
    (kOrV layer kvToken : ℕ) (slot : ℤ) : Option (List Copy) :=
  (List.range launch.scalarsPerToken).mapM fun i : ℕ => do
    let object ← keyValueOffset kOrV layer kvToken i launch.scalarsPerToken launch.numTokens
      launch.numLayers
    let cache ← pageBufferOffset launch.format kOrV slot i launch.scalarsPerToken
      launch.numLayers launch.pageBufferSize launch.blockSize
    return direction.copy (keyValue + object * launch.wordBytes)
      (table.getD layer 0 + cache * launch.wordBytes) launch.wordBytes

/-- `load_and_reshape_multi_layer_kernel` over its grid. -/
def copies (table : List ℤ) (keyValue : ℤ) (slots : List ℤ) (skipPrefixNTokens : ℕ)
    (direction : TransferDirection) : Option (List Copy) :=
  launchGrid (List.range launch.format.halves ×ˢ List.range launch.numLayers ×ˢ
      List.range (launch.numTokens - skipPrefixNTokens)) fun place =>
    let kvToken := place.2.2 + skipPrefixNTokens
    tokenBlock slots kvToken
      (launch.rowCopies table keyValue direction place.1 place.2.1 kvToken)

end MultiLayerLaunch

/-- The copies of `multi_layer_kv_transfer`. -/
def multiLayerCopies (keyValue : Tensor) (table slots : List ℤ) (pageBufferSize : ℕ)
    (direction : TransferDirection) (format : GPUKVFormat) (blockSize skipPrefixNTokens : ℕ) :
    Option (List Copy) := do
  let launch ← multiLayerKvTransfer keyValue format pageBufferSize blockSize
  launch.copies table keyValue.dataPtr slots skipPrefixNTokens direction

/-- `page_buffer_offset_unilateral`, called with a 64-bit slot. -/
def pageBufferOffsetUnilateral (tokenIdx scalarOffset scalarsPerToken : ℤ) : Option ℤ :=
  let token := tokenIdx * scalarsPerToken
  cResult [tokenIdx, token, token + scalarOffset] [] (token + scalarOffset)

/-- The threads of one block of `load_and_reshape_multi_layer_kernel_unilateral`,
whose table has the pointers of the keys and then those of the values. -/
def unilateralRowCopies (keyValue : ℤ) (table : List ℤ) (numQwords numTokens numLayers : ℕ)
    (direction : TransferDirection) (kOrV layer token : ℕ) (slot : ℤ) : Option (List Copy) :=
  (List.range numQwords).mapM fun i : ℕ => do
    let object ← keyValueOffset kOrV layer token i numQwords numTokens numLayers
    let cache ← pageBufferOffsetUnilateral slot i numQwords
    let base := if kOrV = 0 then table.getD layer 0 else table.getD (layer + numLayers) 0
    return direction.copy (keyValue + object * 8) (base + cache * 8) 8

/-- The copies of `multi_layer_kv_transfer_unilateral`. -/
def multiLayerCopiesUnilateral (keyValue : Tensor) (table slots : List ℤ) (pageBufferSize : ℕ)
    (direction : TransferDirection) (format : GPUKVFormat) : Option (List Copy) :=
  if isMla format then
    multiLayerCopies keyValue table slots pageBufferSize direction format 0 0
  else
    let numLayers := keyValue.dim 1
    let numTokens := slots.length
    let numOriginElements := keyValue.dim 3
    let elementsPerQword := 8 / keyValue.elementSize
    let numQwords := numOriginElements / elementsPerQword
    if (∀ size ∈ [numLayers, numTokens, numOriginElements, pageBufferSize], size < 2147483648) ∧
        elementsPerQword ≠ 0 then
      launchGrid (List.range 2 ×ˢ List.range (keyValue.dim 1) ×ˢ List.range (keyValue.dim 2))
        fun place => tokenBlock slots place.2.2
          (unilateralRowCopies keyValue.dataPtr table numQwords numTokens numLayers direction
            place.1 place.2.1 place.2.2)
    else none

/-- What a launch of `single_layer_kv_transfer_kernel` is given. -/
structure SingleLayerLaunch where
  useMla : Bool
  numTokens : ℕ
  numHeads : ℕ
  headSizeIn64bit : ℕ
  blockSize : ℕ
  blockKeyStride : ℕ
  valueOffset : ℕ
  lmcStride : ℕ
  lmcValueOffset : ℕ
deriving DecidableEq, Repr

/-- The sizes that `single_layer_kv_transfer` reads off its tensors. -/
def singleLayerSizes (lmc vllm : Tensor) (numTokens : ℕ) (format : GPUKVFormat)
    (tokenMajor : Bool) : SingleLayerLaunch :=
  let elementsPerEntry := 8 / vllm.elementSize
  if isMla format then
    { useMla := true
      numTokens := numTokens
      numHeads := 1
      headSizeIn64bit := vllm.dim 2 / elementsPerEntry
      blockSize := vllm.dim 1
      blockKeyStride := vllm.strideOf 0 / elementsPerEntry
      valueOffset := 0
      lmcStride := lmc.strideOf 0 / elementsPerEntry
      lmcValueOffset := 0 }
  else
    { useMla := false
      numTokens := numTokens
      numHeads := vllm.dim 3
      headSizeIn64bit := vllm.dim 4 / elementsPerEntry
      blockSize := vllm.dim 2
      blockKeyStride :=
        (if format = .nlXTwoNbBsNhHs then vllm.strideOf 1 else vllm.strideOf 0) / elementsPerEntry
      valueOffset :=
        (if format = .nlXTwoNbBsNhHs then vllm.strideOf 0 else vllm.strideOf 1) / elementsPerEntry
      lmcStride := (if tokenMajor then lmc.strideOf 0 else lmc.strideOf 1) / elementsPerEntry
      lmcValueOffset :=
        (if tokenMajor then lmc.strideOf 1 else lmc.strideOf 0) / elementsPerEntry }

/-- `single_layer_kv_transfer` up to the launch. None where a size is not an
`int` and where an element is larger than a 64-bit entry. -/
def singleLayerKvTransfer (lmc vllm : Tensor) (numTokens : ℕ) (format : GPUKVFormat)
    (tokenMajor : Bool) : Option SingleLayerLaunch :=
  let launch := singleLayerSizes lmc vllm numTokens format tokenMajor
  if (∀ size ∈ [launch.numTokens, launch.numHeads, launch.headSizeIn64bit, launch.blockSize,
      launch.blockKeyStride, launch.valueOffset, launch.lmcStride, launch.lmcValueOffset,
      launch.numHeads * launch.headSizeIn64bit], size < 2147483648) ∧
        8 / vllm.elementSize ≠ 0 then some launch
  else none

namespace SingleLayerLaunch

variable (launch : SingleLayerLaunch)

/-- The index of a key entry in the paged layer, computed in `int64_t`. -/
def vllmKeyIdx (slot : ℤ) (i : ℕ) : ℤ :=
  slot.tdiv launch.blockSize * launch.blockKeyStride +
    slot.tmod launch.blockSize * launch.numHeads * launch.headSizeIn64bit +
      ((i / launch.headSizeIn64bit * launch.headSizeIn64bit + i % launch.headSizeIn64bit : ℕ) : ℤ)

/-- The threads of one block of `single_layer_kv_transfer_kernel`. -/
def rowCopies (lmc vllm : ℤ) (direction : TransferDirection) (token : ℕ) (slot : ℤ) :
    List Copy :=
  (List.range (launch.numHeads * launch.headSizeIn64bit)).flatMap fun i : ℕ =>
    let lmcKeyIdx : ℤ := ((token * launch.lmcStride + i : ℕ) : ℤ)
    let vllmKeyIdx := launch.vllmKeyIdx slot i
    direction.copy (lmc + lmcKeyIdx * 8) (vllm + vllmKeyIdx * 8) 8 ::
      if launch.useMla then []
      else [direction.copy (lmc + (lmcKeyIdx + launch.lmcValueOffset) * 8)
        (vllm + (vllmKeyIdx + launch.valueOffset) * 8) 8]

/-- `single_layer_kv_transfer_kernel` over its grid. -/
def copies (lmc vllm : ℤ) (slots : List ℤ) (direction : TransferDirection) :
    Option (List Copy) :=
  launchGrid (List.range launch.numTokens) fun token =>
    tokenBlock slots token fun slot => some (launch.rowCopies lmc vllm direction token slot)

end SingleLayerLaunch

/-- The copies of `single_layer_kv_transfer`. -/
def singleLayerCopies (lmc vllm : Tensor) (slots : List ℤ) (direction : TransferDirection)
    (format : GPUKVFormat) (tokenMajor : Bool) : Option (List Copy) := do
  let launch ← singleLayerKvTransfer lmc vllm slots.length format tokenMajor
  launch.copies lmc.dataPtr vllm.dataPtr slots direction

end LMCacheHcu.Kernels
