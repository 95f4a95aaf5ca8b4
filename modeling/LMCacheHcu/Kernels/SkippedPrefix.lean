import LMCacheHcu.Kernels.AddressingGuarantees
import LMCacheHcu.Kernels.TransferRows

/-! # Transfers behind a skipped prefix

`multi_layer_kv_transfer` between a paged cache, in any format that it handles,
and a memory object. The width of its words depends on the size of a row; the
bytes that it joins are those of a copy of the elements one by one. A chunk that
was saved comes back behind the prefix that is skipped. Both hold when the
32-bit steps of the saved rows fit.
-/

namespace LMCacheHcu.Kernels

open RowMajor ByteCopy Storage

/-- A chunk, the paged cache with the table that a connector makes of it, and the
memory object. -/
structure PagedTransfer where
  connector : PagedConnector
  kvCaches : KVCaches
  format : GPUKVFormat
  table : List ℤ
  pageBufferSize : ℕ
  blockSize : ℕ
  prepared : connector.Prepares kvCaches (.fused format table pageBufferSize blockSize)
  dims : CacheDims
  dtype : DType
  inLayout : kvCaches.InLayout (.fused format) dims dtype
  addressable : kvCaches.Addressable
  slots : List ℤ
  slotsIn : ∀ slot ∈ slots, slot < dims.pageBufferSize
  keyValue : Tensor
  keyValue_dense : DenseTensor keyValue
    [format.halves, dims.numLayers, slots.length, format.rowElements dims] dtype

namespace PagedTransfer

variable (transfer : PagedTransfer)

def numTokens : ℕ := transfer.slots.length

def rowElements : ℕ := transfer.format.rowElements transfer.dims

def rowBytes : ℕ := transfer.rowElements * transfer.dtype.itemsize

/-- The words of a row. -/
def words : ℕ := wordsPerRow transfer.rowElements transfer.dtype.itemsize

/-- The copies of the transfer. -/
def copies (direction : TransferDirection) (skipPrefixNTokens : ℕ) : Option (List Copy) :=
  multiLayerCopies transfer.keyValue transfer.table transfer.slots transfer.pageBufferSize
    direction transfer.format transfer.blockSize skipPrefixNTokens

/-! ### The copy element by element -/

def elementCopy (direction : TransferDirection) (layer kOrV token slot element : ℕ) : Copy :=
  direction.copy (rowMajorAddress transfer.keyValue [kOrV, layer, token, element])
    ((transfer.kvCaches.elementAddress (.fused transfer.format) transfer.dims
      ⟨layer, kOrV, slot, element⟩).getD 0) transfer.dtype.itemsize

def elementRow (direction : TransferDirection) (layer kOrV token slot : ℕ) : List Copy :=
  (List.range transfer.rowElements).map (transfer.elementCopy direction layer kOrV token slot)

/-- The elements of the tokens behind the prefix, but not of those with a negative slot. -/
def elementCopies (direction : TransferDirection) (skipPrefixNTokens : ℕ) : List Copy :=
  (List.range transfer.format.halves ×ˢ List.range transfer.dims.numLayers ×ˢ
      List.range transfer.numTokens).flatMap fun (kOrV, layer, token) =>
    let slot := transfer.slots.getD token 0
    if token < skipPrefixNTokens ∨ slot < 0 then []
    else transfer.elementRow direction layer kOrV token slot.toNat

/-! ### What the transfers are for -/

/-- The slot is that of a token behind the prefix. -/
def Restored (skipPrefixNTokens slot : ℕ) : Prop :=
  ∃ token, Mapped transfer.slots skipPrefixNTokens token slot

/-- The rows of the tokens behind the prefix are those of the old cache; every
other row and all other memory is as it was. -/
structure Restores (skipPrefixNTokens : ℕ) (before now after : ℤ → UInt8) : Prop where
  restored : ∀ coordinate : KVCoordinate,
    coordinate.InCache (.fused transfer.format) transfer.dims →
    transfer.Restored skipPrefixNTokens coordinate.position →
    ∀ start, transfer.kvCaches.elementAddress (.fused transfer.format) transfer.dims
      coordinate = some start →
    ∀ byte < transfer.dtype.itemsize, after (start + (byte : ℤ)) = before (start + (byte : ℤ))
  kept : ∀ coordinate : KVCoordinate,
    coordinate.InCache (.fused transfer.format) transfer.dims →
    ¬ transfer.Restored skipPrefixNTokens coordinate.position →
    ∀ start, transfer.kvCaches.elementAddress (.fused transfer.format) transfer.dims
      coordinate = some start →
    ∀ byte < transfer.dtype.itemsize, after (start + (byte : ℤ)) = now (start + (byte : ℤ))
  elsewhere : ∀ address, (∀ coordinate : KVCoordinate,
      coordinate.InCache (.fused transfer.format) transfer.dims →
      ∀ start, transfer.kvCaches.elementAddress (.fused transfer.format) transfer.dims
        coordinate = some start →
      ∀ byte < transfer.dtype.itemsize, address ≠ start + (byte : ℤ)) →
    after address = now address

/-- A transfer joins the bytes that a copy element by element joins, and saving
all rows and loading those behind the prefix restores these, whatever the orders
of the threads. -/
structure RoundTrips (skipPrefixNTokens : ℕ) : Prop where
  likeElements : ∀ direction, ∃ copies,
    transfer.copies direction skipPrefixNTokens = some copies ∧
    ∀ origin address, Moves copies origin address ↔
      Moves (transfer.elementCopies direction skipPrefixNTokens) origin address
  restores : ∃ saved loaded, transfer.copies .d2h 0 = some saved ∧
    transfer.copies .h2d skipPrefixNTokens = some loaded ∧
    ∀ savedOrder loadedOrder, savedOrder.Perm saved → loadedOrder.Perm loaded →
      ∀ before object now : ℤ → UInt8, transfer.Restores skipPrefixNTokens before now
        (writeAll (writeAll before savedOrder object) loadedOrder now)

/-- The sizes that the launch narrows fit, and the 32-bit steps of the words of
the tokens behind the prefix. -/
structure FitsFrom (skipPrefixNTokens : ℕ) : Prop where
  element : transfer.dtype.itemsize ≤ 8
  sizes : ∀ size ∈ [transfer.dims.numLayers, transfer.numTokens, transfer.rowElements,
    transfer.rowBytes, transfer.dims.pageBufferSize,
    transfer.format.passedBlockSize transfer.dims], size < 2147483648
  steps : ∀ layer kOrV token slot word, layer < transfer.dims.numLayers →
    kOrV < transfer.format.halves → Mapped transfer.slots skipPrefixNTokens token slot →
    word < transfer.words →
    transfer.format.StepsFit transfer.dims kOrV slot word transfer.words ∧
      ((kOrV * transfer.dims.numLayers + layer) * transfer.numTokens + token) * transfer.words +
        word < 2147483648

variable {transfer} {skipPrefixNTokens : ℕ}

theorem FitsFrom.later (fits : transfer.FitsFrom 0) : transfer.FitsFrom skipPrefixNTokens :=
  ⟨fits.element, fits.sizes, fun layer kOrV token slot word layerIn half mapped =>
    fits.steps layer kOrV token slot word layerIn half ⟨Nat.zero_le _, mapped.2⟩⟩

/-! ### Rows -/

section Rows

variable {layer kOrV token slot : ℕ}

theorem tables (transfer : PagedTransfer) :
    FusedTable transfer.kvCaches transfer.format transfer.dims transfer.dtype transfer.table
      transfer.pageBufferSize transfer.blockSize :=
  transfer.prepared.fusedTable transfer.inLayout

theorem slot_lt (mapped : Mapped transfer.slots skipPrefixNTokens token slot) :
    slot < transfer.dims.pageBufferSize := by
  have below := transfer.slotsIn _ (List.mem_of_getElem? mapped.2)
  exact_mod_cast below

/-- The first byte of a row in the memory object. -/
def objectRow (transfer : PagedTransfer) (layer kOrV token : ℕ) : ℤ :=
  transfer.keyValue.dataPtr + ((((kOrV * transfer.dims.numLayers + layer) * transfer.numTokens +
    token) * transfer.rowBytes : ℕ) : ℤ)

/-- The first byte of a row in the paged cache. -/
def cacheRow (transfer : PagedTransfer) (layer kOrV slot : ℕ) : ℤ :=
  transfer.table.getD layer 0 +
    ((transfer.format.pointerRow transfer.dims kOrV slot * transfer.rowBytes : ℕ) : ℤ)

theorem objectElement_eq (layer kOrV token element : ℕ) :
    rowMajorAddress transfer.keyValue [kOrV, layer, token, element] =
      transfer.objectRow layer kOrV token +
        ((element * transfer.dtype.itemsize : ℕ) : ℤ) := by
  have place : offset [transfer.format.halves, transfer.dims.numLayers, transfer.slots.length,
      transfer.format.rowElements transfer.dims] [kOrV, layer, token, element] =
      ((kOrV * transfer.dims.numLayers + layer) * transfer.numTokens + token) *
        transfer.rowElements + element := by
    simp only [offset_cons, offset_nil, List.prod_cons, List.prod_nil, numTokens, rowElements]
    ring
  rw [rowMajorAddress, transfer.keyValue_dense.extents, place, Tensor.elementSize,
    transfer.keyValue_dense.elements, objectRow, rowBytes]
  push_cast
  ring

theorem cacheElement_eq {coordinate : KVCoordinate}
    (inCache : coordinate.InCache (.fused transfer.format) transfer.dims) :
    transfer.kvCaches.elementAddress (.fused transfer.format) transfer.dims coordinate =
      some (transfer.cacheRow coordinate.layer coordinate.kOrV coordinate.position +
        ((coordinate.element * transfer.dtype.itemsize : ℕ) : ℤ)) := by
  rw [transfer.tables.elementAddress_eq inCache, cacheRow, rowBytes, rowElements]
  push_cast
  ring_nf

/-- A byte of a row belongs to an element. -/
theorem exists_element {byte : ℕ} (byteIn : byte < transfer.rowBytes)
    (layerIn : layer < transfer.dims.numLayers) (half : kOrV < transfer.format.halves)
    (slotIn : slot < transfer.dims.pageBufferSize) :
    ∃ coordinate : KVCoordinate, coordinate.layer = layer ∧ coordinate.kOrV = kOrV ∧
      coordinate.position = slot ∧ coordinate.InCache (.fused transfer.format) transfer.dims ∧
      ∃ start, transfer.kvCaches.elementAddress (.fused transfer.format) transfer.dims
          coordinate = some start ∧
        ∃ low < transfer.dtype.itemsize, byte = coordinate.element * transfer.dtype.itemsize + low ∧
          transfer.cacheRow layer kOrV slot + (byte : ℤ) = start + (low : ℤ) := by
  obtain ⟨element, low, elementIn, lowIn, rfl⟩ := exists_digit byteIn
  have inCache : (⟨layer, kOrV, slot, element⟩ : KVCoordinate).InCache (.fused transfer.format)
      transfer.dims := ⟨layerIn, half, slotIn, elementIn⟩
  refine ⟨_, rfl, rfl, rfl, inCache, _, cacheElement_eq inCache, low, lowIn, rfl, ?_⟩
  push_cast
  ring

/-- Distinct rows of the cache have distinct bytes. -/
theorem cacheRow_inj {layer' kOrV' slot' byte byte' : ℕ}
    (layerIn : layer < transfer.dims.numLayers) (half : kOrV < transfer.format.halves)
    (slotIn : slot < transfer.dims.pageBufferSize) (byteIn : byte < transfer.rowBytes)
    (layerIn' : layer' < transfer.dims.numLayers) (half' : kOrV' < transfer.format.halves)
    (slotIn' : slot' < transfer.dims.pageBufferSize) (byteIn' : byte' < transfer.rowBytes)
    (same : transfer.cacheRow layer kOrV slot + (byte : ℤ) =
      transfer.cacheRow layer' kOrV' slot' + (byte' : ℤ)) :
    layer = layer' ∧ kOrV = kOrV' ∧ slot = slot' ∧ byte = byte' := by
  obtain ⟨first, rfl, rfl, rfl, inCache, start, formed, low, lowIn, rfl, place⟩ :=
    exists_element byteIn layerIn half slotIn
  obtain ⟨second, rfl, rfl, rfl, inCache', start', formed', low', lowIn', rfl, place'⟩ :=
    exists_element byteIn' layerIn' half' slotIn'
  obtain ⟨rfl, rfl⟩ := transfer.inLayout.elementByte_inj transfer.addressable inCache inCache'
    formed formed' lowIn lowIn' (by rw [← place, ← place', same])
  exact ⟨rfl, rfl, rfl, rfl⟩

/-- Distinct rows of the memory object have distinct bytes. -/
theorem objectRow_inj {layer' kOrV' token' byte byte' : ℕ}
    (layerIn : layer < transfer.dims.numLayers) (tokenIn : token < transfer.numTokens)
    (byteIn : byte < transfer.rowBytes) (layerIn' : layer' < transfer.dims.numLayers)
    (tokenIn' : token' < transfer.numTokens) (byteIn' : byte' < transfer.rowBytes)
    (same : transfer.objectRow layer kOrV token + (byte : ℤ) =
      transfer.objectRow layer' kOrV' token' + (byte' : ℤ)) :
    layer = layer' ∧ kOrV = kOrV' ∧ token = token' ∧ byte = byte' := by
  have digits : ((kOrV * transfer.dims.numLayers + layer) * transfer.numTokens + token) *
        transfer.rowBytes + byte =
      ((kOrV' * transfer.dims.numLayers + layer') * transfer.numTokens + token') *
        transfer.rowBytes + byte' := by
    unfold objectRow at same
    omega
  obtain ⟨rfl, rfl, rfl, rfl⟩ := objectPlace_inj layerIn tokenIn byteIn layerIn' tokenIn' byteIn'
    digits
  exact ⟨rfl, rfl, rfl, rfl⟩

/-- The bytes of a row that is copied element by element. -/
theorem elementRow_moves (direction : TransferDirection) (layerIn : layer < transfer.dims.numLayers)
    (half : kOrV < transfer.format.halves) (slotIn : slot < transfer.dims.pageBufferSize)
    (origin address : ℤ) :
    Moves (transfer.elementRow direction layer kOrV token slot) origin address ↔
      ∃ byte < transfer.rowBytes,
        direction.Joins (transfer.objectRow layer kOrV token + (byte : ℤ))
          (transfer.cacheRow layer kOrV slot + (byte : ℤ)) origin address := by
  have row : transfer.elementRow direction layer kOrV token slot =
      (List.range transfer.rowElements).map fun element => direction.copy
        (transfer.objectRow layer kOrV token + ((element * transfer.dtype.itemsize : ℕ) : ℤ))
        (transfer.cacheRow layer kOrV slot + ((element * transfer.dtype.itemsize : ℕ) : ℤ))
        transfer.dtype.itemsize := by
    refine List.map_congr_left fun element member => ?_
    have inCache : (⟨layer, kOrV, slot, element⟩ : KVCoordinate).InCache (.fused transfer.format)
        transfer.dims := ⟨layerIn, half, slotIn, List.mem_range.mp member⟩
    rw [elementCopy, objectElement_eq, cacheElement_eq inCache, Option.getD_some]
  rw [row, direction.moves_words]
  rfl

end Rows

/-! ### The bytes of the transfers -/

/-- The copies join the bytes of the rows of the tokens behind the prefix. -/
def JoinsBehind (transfer : PagedTransfer) (direction : TransferDirection)
    (skipPrefixNTokens : ℕ) (copies : List Copy) : Prop :=
  JoinsRows direction copies transfer.format.halves transfer.dims.numLayers transfer.slots
    skipPrefixNTokens transfer.rowBytes transfer.objectRow transfer.cacheRow

theorem joinsBehind_elementCopies (direction : TransferDirection) :
    transfer.JoinsBehind direction skipPrefixNTokens
      (transfer.elementCopies direction skipPrefixNTokens) := by
  intro origin address
  rw [elementCopies, moves_flatMap]
  constructor
  · rintro ⟨⟨kOrV, layer, token⟩, member, moved⟩
    simp only [List.mem_product, List.mem_range] at member
    obtain ⟨half, layerIn, tokenIn⟩ := member
    have there : transfer.slots.getD token 0 = transfer.slots[token] := by
      rw [List.getD_eq_getElem?_getD, List.getElem?_eq_getElem tokenIn, Option.getD_some]
    dsimp only at moved
    rw [there] at moved
    split at moved
    · exact absurd moved (not_moves_nil _ _)
    · rename_i copied
      rw [not_or, Nat.not_lt, Int.not_lt] at copied
      have mapped : Mapped transfer.slots skipPrefixNTokens token transfer.slots[token].toNat := by
        refine ⟨copied.1, ?_⟩
        rw [Int.toNat_of_nonneg copied.2]
        exact List.getElem?_eq_getElem tokenIn
      exact ⟨kOrV, layer, token, _, half, layerIn, mapped,
        (elementRow_moves direction layerIn half (slot_lt mapped) origin address).mp moved⟩
  · rintro ⟨kOrV, layer, token, slot, half, layerIn, mapped, joined⟩
    refine ⟨(kOrV, layer, token), ?_, ?_⟩
    · simp only [List.mem_product, List.mem_range]
      exact ⟨half, layerIn, mapped.token_lt⟩
    · have there : transfer.slots.getD token 0 = slot := by
        rw [List.getD_eq_getElem?_getD, mapped.2, Option.getD_some]
      have copied : ¬ (token < skipPrefixNTokens ∨ (slot : ℤ) < 0) := by
        rw [not_or, Nat.not_lt]
        exact ⟨mapped.1, by omega⟩
      dsimp only
      rw [there, if_neg copied, Int.toNat_natCast]
      exact (elementRow_moves direction layerIn half (slot_lt mapped) origin address).mpr joined

/-- **The transfer.** It is launched exactly when its steps fit, and then joins
the bytes of the rows. -/
theorem copies_iff (direction : TransferDirection) :
    ((∃ copies, transfer.copies direction skipPrefixNTokens = some copies) ↔
        transfer.FitsFrom skipPrefixNTokens) ∧
      ∀ copies, transfer.copies direction skipPrefixNTokens = some copies →
        transfer.JoinsBehind direction skipPrefixNTokens copies := by
  obtain ⟨launches, joins⟩ := multiLayerCopies_iff transfer.tables.handled
    transfer.keyValue_dense.extents transfer.keyValue_dense.elements transfer.table direction
    skipPrefixNTokens
  rw [← transfer.tables.pageBufferSize, ← transfer.tables.blockSize] at launches joins
  refine ⟨launches.trans ⟨?_, fun fits => ⟨⟨fits.element, fits.sizes⟩, ?_⟩⟩, joins⟩
  · rintro ⟨sizes, fits⟩
    refine ⟨sizes.element, sizes.sizes, fun layer kOrV token slot word layerIn half mapped wordIn =>
      ?_⟩
    have fit := fits kOrV layer token slot word half layerIn mapped wordIn
    exact ⟨fit.steps, fit.object⟩
  · intro kOrV layer token slot word half layerIn mapped wordIn
    have fit := fits.steps layer kOrV token slot word layerIn half mapped wordIn
    have few : transfer.words ≤ transfer.rowElements := Nat.div_le_self _ _
    have inCache : (⟨layer, kOrV, slot, word⟩ : KVCoordinate).InCache (.fused transfer.format)
        transfer.dims := ⟨layerIn, half, slot_lt mapped, wordIn.trans_le few⟩
    have below := transfer.tables.element_lt transfer.addressable.inside inCache
    have rows := Nat.mul_le_mul_left (transfer.format.pointerRow transfer.dims kOrV slot) few
    refine ⟨fit.1, ?_, fit.2⟩
    change _ * transfer.words + word < _
    rw [rowElements] at rows
    dsimp only at below
    omega

/-! ### Saving and loading -/

section Restoring

variable {layer kOrV token slot byte : ℕ} {copies : List Copy} {before object now : ℤ → UInt8}

/-- A byte of an element is one of its row. -/
theorem element_byte {coordinate : KVCoordinate}
    (inCache : coordinate.InCache (.fused transfer.format) transfer.dims) {start : ℤ}
    (formed : transfer.kvCaches.elementAddress (.fused transfer.format) transfer.dims coordinate =
      some start) (byteIn : byte < transfer.dtype.itemsize) :
    coordinate.element * transfer.dtype.itemsize + byte < transfer.rowBytes ∧
      start + (byte : ℤ) =
        transfer.cacheRow coordinate.layer coordinate.kOrV coordinate.position +
          ((coordinate.element * transfer.dtype.itemsize + byte : ℕ) : ℤ) := by
  rw [cacheElement_eq inCache, Option.some.injEq] at formed
  refine ⟨digit_lt inCache.element byteIn, ?_⟩
  rw [← formed]
  push_cast
  ring

/-- A saved row has the bytes of the cache. -/
theorem saved_byte (joins : transfer.JoinsBehind .d2h 0 copies)
    (layerIn : layer < transfer.dims.numLayers) (half : kOrV < transfer.format.halves)
    (mapped : Mapped transfer.slots 0 token slot) (byteIn : byte < transfer.rowBytes) :
    writeAll before copies object (transfer.objectRow layer kOrV token + (byte : ℤ)) =
      before (transfer.cacheRow layer kOrV slot + (byte : ℤ)) := by
  refine writeAll_of_agree before object ((joins _ _).mpr
    ⟨kOrV, layer, token, slot, half, layerIn, mapped, byte, byteIn, rfl, rfl⟩) ?_
  intro origin moved
  obtain ⟨kOrV', layer', token', slot', _, layerIn', mapped', byte', byteIn', rfl, same⟩ :=
    (joins _ _).mp moved
  obtain ⟨rfl, rfl, rfl, rfl⟩ := objectRow_inj layerIn mapped.token_lt byteIn layerIn'
    mapped'.token_lt byteIn' same
  have slots : (slot' : ℤ) = slot := Option.some.inj (mapped'.2.symm.trans mapped.2)
  rw [Nat.cast_inj.mp slots]

/-- A loaded row has the bytes that all tokens with its slot have. -/
theorem loaded_byte {source : ℤ → UInt8} {value : UInt8}
    (joins : transfer.JoinsBehind .h2d skipPrefixNTokens copies)
    (layerIn : layer < transfer.dims.numLayers) (half : kOrV < transfer.format.halves)
    (restored : transfer.Restored skipPrefixNTokens slot) (byteIn : byte < transfer.rowBytes)
    (agree : ∀ token, Mapped transfer.slots skipPrefixNTokens token slot →
      source (transfer.objectRow layer kOrV token + (byte : ℤ)) = value) :
    writeAll source copies now (transfer.cacheRow layer kOrV slot + (byte : ℤ)) = value := by
  obtain ⟨token, mapped⟩ := restored
  refine writeAll_of_agree source now ((joins _ _).mpr
    ⟨kOrV, layer, token, slot, half, layerIn, mapped, byte, byteIn, rfl, rfl⟩) ?_
  intro origin moved
  obtain ⟨kOrV', layer', token', slot', half', layerIn', mapped', byte', byteIn', rfl, same⟩ :=
    (joins _ _).mp moved
  obtain ⟨rfl, rfl, rfl, rfl⟩ := cacheRow_inj layerIn half (slot_lt mapped) byteIn layerIn' half'
    (slot_lt mapped') byteIn' same
  exact agree token' mapped'

/-- An address outside the rows behind the prefix is not written. -/
theorem not_loaded {source : ℤ → UInt8} {address : ℤ}
    (joins : transfer.JoinsBehind .h2d skipPrefixNTokens copies)
    (outside : ∀ kOrV layer slot byte : ℕ, kOrV < transfer.format.halves →
      layer < transfer.dims.numLayers → transfer.Restored skipPrefixNTokens slot →
      byte < transfer.rowBytes → address ≠ transfer.cacheRow layer kOrV slot + (byte : ℤ)) :
    writeAll source copies now address = now address := by
  refine writeAll_of_not_moved source now fun origin moved => ?_
  obtain ⟨kOrV, layer, token, slot, half, layerIn, mapped, byte, byteIn, _, same⟩ :=
    (joins _ _).mp moved
  exact outside kOrV layer slot byte half layerIn ⟨token, mapped⟩ byteIn same

theorem restores_of_joins {saved loaded : List Copy} (saves : transfer.JoinsBehind .d2h 0 saved)
    (loads : transfer.JoinsBehind .h2d skipPrefixNTokens loaded) :
    transfer.Restores skipPrefixNTokens before now
      (writeAll (writeAll before saved object) loaded now) := by
  refine ⟨?_, ?_, ?_⟩
  · intro coordinate inCache restored start formed byte byteIn
    obtain ⟨inRow, place⟩ := element_byte inCache formed byteIn
    rw [place]
    refine loaded_byte loads inCache.layer inCache.half restored inRow fun token mapped => ?_
    exact saved_byte saves inCache.layer inCache.half ⟨Nat.zero_le _, mapped.2⟩ inRow
  · intro coordinate inCache unmapped start formed byte byteIn
    obtain ⟨inRow, place⟩ := element_byte inCache formed byteIn
    refine not_loaded loads fun kOrV layer slot other half layerIn restored otherIn same => ?_
    obtain ⟨token, mapped⟩ := id restored
    obtain ⟨_, _, here, _⟩ := cacheRow_inj inCache.layer inCache.half inCache.slot inRow layerIn
      half (slot_lt mapped) otherIn (place.symm.trans same)
    exact unmapped (here ▸ restored)
  · intro address outside
    refine not_loaded loads fun kOrV layer slot byte half layerIn restored byteIn same => ?_
    obtain ⟨token, mapped⟩ := restored
    obtain ⟨coordinate, _, _, _, inCache, start, formed, low, lowIn, _, place⟩ :=
      exists_element byteIn layerIn half (slot_lt mapped)
    exact outside coordinate inCache start formed low lowIn (same.trans place)

end Restoring

theorem JoinsBehind.perm {direction : TransferDirection} {copies others : List Copy}
    (joins : transfer.JoinsBehind direction skipPrefixNTokens copies)
    (same : others.Perm copies) : transfer.JoinsBehind direction skipPrefixNTokens others :=
  fun origin address => (moves_perm same origin address).trans (joins origin address)

/-- **Saving a chunk and loading it behind a prefix.** The transfers join the
bytes of the elements and restore their rows exactly when the 32-bit steps of
all rows with a slot fit. -/
theorem roundTripsBehind_iff (transfer : PagedTransfer) (skipPrefixNTokens : ℕ) :
    transfer.RoundTrips skipPrefixNTokens ↔ transfer.FitsFrom 0 := by
  constructor
  · rintro ⟨_, saved, _, saves, _⟩
    exact (copies_iff .d2h).1.mp ⟨saved, saves⟩
  · intro fits
    refine ⟨fun direction => ?_, ?_⟩
    · obtain ⟨copies, copied⟩ := (copies_iff direction).1.mpr
        (fits.later : transfer.FitsFrom skipPrefixNTokens)
      refine ⟨copies, copied, fun origin address => ?_⟩
      rw [(copies_iff direction).2 copies copied origin address]
      exact (joinsBehind_elementCopies direction origin address).symm
    · obtain ⟨saved, saves⟩ := (copies_iff .d2h).1.mpr fits
      obtain ⟨loaded, loads⟩ := (copies_iff .h2d).1.mpr
        (fits.later : transfer.FitsFrom skipPrefixNTokens)
      refine ⟨saved, loaded, saves, loads, ?_⟩
      intro savedOrder loadedOrder savedSame loadedSame before object now
      exact restores_of_joins (((copies_iff .d2h).2 saved saves).perm savedSame)
        (((copies_iff .h2d).2 loaded loads).perm loadedSame)

/-- One token of a large cache in the layout of flash attention. -/
def largeTransfer : PagedTransfer where
  connector := ⟨1, 1024, false, false, Nat.one_pos⟩
  kvCaches := .layers [largeLayer]
  format := .nlXTwoNbBsNhHs
  table := [4096]
  pageBufferSize := 8388608
  blockSize := 16
  prepared := .inl rfl
  dims := ⟨1, 524288, 16, 8, 128⟩
  dtype := .bfloat16
  inLayout := ⟨rfl, .nlXTwoNbBsNhHs, rfl, by decide, by decide, by decide⟩
  addressable := ⟨by decide, by decide⟩
  slots := [0]
  slotsIn := by decide
  keyValue := largeObject
  keyValue_dense := ⟨rfl, rfl, rfl, by decide⟩

/-- **A large cache.** The offset of the first value is a product of 2^31 in `int`. -/
theorem not_roundTrips_largeTransfer : ¬ largeTransfer.RoundTrips 0 := by
  rintro ⟨_, saved, _, saves, _⟩
  have fits := (copies_iff .d2h).1.mp ⟨saved, saves⟩
  have step : 1 * 8388608 * 256 < 2147483648 :=
    (fits.steps 0 1 0 0 0 (by decide) (by decide) ⟨Nat.le_refl _, rfl⟩ (by decide)).1
  exact absurd step (by decide)

end PagedTransfer

end LMCacheHcu.Kernels
