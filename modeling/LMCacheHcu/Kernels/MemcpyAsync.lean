import LMCacheHcu.Foundation.Tilings
import LMCacheHcu.Foundation.WhileLoop
import LMCacheHcu.Kernels.ByteMoves

/-! # Copies of host buffers in aligned pieces

`lmcache_memcpy_async` cuts a copy at the alignment boundaries of the host buffer,
in the arithmetic of `size_t`. Its check lets zero pass for a power of two, and the
end of the last aligned area is zero.
-/

namespace LMCacheHcu.Kernels

open Tilings WhileLoop

/-- The arguments of `lmcache_memcpy_async`. -/
structure MemcpyArguments where
  dest : BitVec 64
  src : BitVec 64
  nbytes : BitVec 64
  direction : TransferDirection
  hostBufferOffset : BitVec 64
  hostBufferAlignments : BitVec 64
deriving DecidableEq

/-- What `cudaMemcpyAsync` is called with. -/
structure MemcpyCall where
  dest : BitVec 64
  src : BitVec 64
  maxNbytes : BitVec 64
  kind : TransferDirection
deriving DecidableEq

namespace MemcpyArguments

/-- The check of the alignment. -/
def checked (arguments : MemcpyArguments) : Bool :=
  arguments.hostBufferAlignments &&& (arguments.hostBufferAlignments - 1) == 0

def mask (arguments : MemcpyArguments) : BitVec 64 := arguments.hostBufferAlignments - 1

def alignedAreaEnd (arguments : MemcpyArguments) (offset : BitVec 64) : BitVec 64 :=
  ((offset + arguments.hostBufferOffset) &&& ~~~arguments.mask) + arguments.hostBufferAlignments

def realEnd (arguments : MemcpyArguments) (offset : BitVec 64) : BitVec 64 :=
  if arguments.alignedAreaEnd offset < arguments.hostBufferOffset + arguments.nbytes then
    arguments.alignedAreaEnd offset
  else arguments.hostBufferOffset + arguments.nbytes

def maxNbytes (arguments : MemcpyArguments) (offset : BitVec 64) : BitVec 64 :=
  arguments.realEnd offset - offset - arguments.hostBufferOffset

def call (arguments : MemcpyArguments) (offset : BitVec 64) : MemcpyCall where
  dest := arguments.dest + offset
  src := arguments.src + offset
  maxNbytes := arguments.maxNbytes offset
  kind := arguments.direction

/-- One pass of the loop, on the offset and the calls so far. -/
def pass (arguments : MemcpyArguments) (state : BitVec 64 × List MemcpyCall) :
    Pass (BitVec 64 × List MemcpyCall) (List MemcpyCall) :=
  let (offset, calls) := state
  if offset < arguments.nbytes then
    .again (offset + arguments.maxNbytes offset, calls ++ [arguments.call offset])
  else .leave calls

end MemcpyArguments

/-- The calls of `lmcache_memcpy_async`, or none when it needs more passes. -/
def lmcacheMemcpyAsync (passes : ℕ) (arguments : MemcpyArguments) :
    Except String (Option (List MemcpyCall)) :=
  if arguments.checked then .ok (run arguments.pass passes (0, []))
  else .error "host_buffer_alignments must be power of two"

/-! ### What the calls have to be -/

/-- Nothing is copied; or the buffer ends before the last aligned area; or it begins
in that area and ends past it, before the area occurs again; or the alignment is zero
and the buffer ends where the words do. -/
def RegularCopy (nbytes hostOffset alignment : ℕ) : Prop :=
  nbytes = 0 ∨ (alignment = 0 ∧ hostOffset + nbytes = 2 ^ 64) ∨
    (0 < alignment ∧ (hostOffset + nbytes + alignment ≤ 2 ^ 64 ∨
      (2 ^ 64 ≤ hostOffset + alignment ∧ 2 ^ 64 ≤ hostOffset + nbytes ∧
        hostOffset + nbytes + alignment ≤ 2 ^ 64 + 2 ^ 64)))

instance (nbytes hostOffset alignment : ℕ) : Decidable (RegularCopy nbytes hostOffset alignment) :=
  inferInstanceAs (Decidable (_ ∨ _ ∨ _))

/-- No multiple of the alignment is strictly inside. -/
def NoCrossing (alignment low high : ℕ) : Prop :=
  ∀ area, ¬(low < area * alignment ∧ area * alignment < high)

namespace MemcpyArguments

/-- Where a call begins, and where it ends, from the beginning of the buffer. -/
def first (arguments : MemcpyArguments) (call : MemcpyCall) : ℕ :=
  (call.dest - arguments.dest).toNat

def last (arguments : MemcpyArguments) (call : MemcpyCall) : ℕ :=
  arguments.first call + call.maxNbytes.toNat

/-- The calls copy consecutive pieces of the buffer, all of it, and each piece is
within one aligned area. -/
structure Partitions (arguments : MemcpyArguments) (calls : List MemcpyCall) : Prop where
  tiles : Tiles (fun call => (arguments.first call : ℤ)) (fun call => (arguments.last call : ℤ))
    0 arguments.nbytes.toNat calls
  source : ∀ call ∈ calls, call.src - arguments.src = call.dest - arguments.dest
  kind : ∀ call ∈ calls, call.kind = arguments.direction
  within : ∀ call ∈ calls, NoCrossing arguments.hostBufferAlignments.toNat
    (arguments.hostBufferOffset.toNat + arguments.first call)
    (arguments.hostBufferOffset.toNat + arguments.last call)

/-- Where the loop does what it is for. -/
def Regular (arguments : MemcpyArguments) : Prop :=
  RegularCopy arguments.nbytes.toNat arguments.hostBufferOffset.toNat
    arguments.hostBufferAlignments.toNat

instance (arguments : MemcpyArguments) : Decidable arguments.Regular :=
  inferInstanceAs (Decidable (RegularCopy ..))

end MemcpyArguments

/-! ### Aligned areas -/

/-- The end of the aligned area that has the position. -/
def areaEnd (alignment position : ℕ) : ℕ := position - position % alignment + alignment

section Areas

variable {alignment position : ℕ}

theorem areaEnd_zero (position : ℕ) : areaEnd 0 position = 0 := by
  rw [areaEnd, Nat.mod_zero, Nat.sub_self]

theorem lt_areaEnd (positive : 0 < alignment) : position < areaEnd alignment position := by
  have rest := Nat.mod_lt position positive
  have part := Nat.mod_le position alignment
  unfold areaEnd
  omega

theorem areaEnd_le_of_dvd {bound : ℕ} (divides : alignment ∣ bound) (before : position < bound) :
    areaEnd alignment position ≤ bound := by
  obtain ⟨areas, rfl⟩ := divides
  have parts := Nat.div_add_mod position alignment
  have fewer : position / alignment < areas := Nat.div_lt_of_lt_mul before
  have upTo := Nat.mul_le_mul_left alignment (Nat.succ_le_of_lt fewer)
  rw [Nat.succ_eq_add_one, Nat.mul_add_one] at upTo
  unfold areaEnd
  omega

theorem le_areaEnd_of_dvd {base : ℕ} (positive : 0 < alignment) (divides : alignment ∣ base)
    (after : base ≤ position) : base + alignment ≤ areaEnd alignment position := by
  obtain ⟨areas, rfl⟩ := divides
  have parts := Nat.div_add_mod position alignment
  have more : areas ≤ position / alignment :=
    (Nat.le_div_iff_mul_le positive).mpr (by rwa [Nat.mul_comm])
  have upTo := Nat.mul_le_mul_left alignment more
  unfold areaEnd
  omega

theorem two_mul_le_of_dvd {size : ℕ} (divides : alignment ∣ size) (smaller : alignment < size) :
    2 * alignment ≤ size := by
  obtain ⟨areas, rfl⟩ := divides
  have two : 1 < areas := lt_of_mul_lt_mul_left ((Nat.mul_one _).trans_lt smaller) (Nat.zero_le _)
  rw [Nat.mul_comm]
  exact Nat.mul_le_mul_left alignment two

/-- A piece within an area crosses no boundary. -/
theorem noCrossing_of_dvd {low high base : ℕ} (divides : alignment ∣ base) (after : base ≤ low)
    (before : high ≤ base + alignment) : NoCrossing alignment low high := by
  obtain ⟨areas, rfl⟩ := divides
  rintro area ⟨above, below⟩
  rw [Nat.mul_comm] at above below
  have low : areas < area := lt_of_mul_lt_mul_left (after.trans_lt above) (Nat.zero_le _)
  have high : area < areas + 1 :=
    lt_of_mul_lt_mul_left ((below.trans_le before).trans_eq (Nat.mul_add_one ..).symm)
      (Nat.zero_le _)
  omega

end Areas

/-! ### The length of a piece -/

/-- `max_nbytes` in natural numbers. -/
def pieceBytes (nbytes hostOffset alignment offset : ℕ) : ℕ :=
  let position := (offset + hostOffset) % 2 ^ 64
  (min ((hostOffset + nbytes) % 2 ^ 64) (areaEnd alignment position % 2 ^ 64) +
    (2 ^ 64 - position)) % 2 ^ 64

theorem MemcpyArguments.toNat_mask {arguments : MemcpyArguments}
    (positive : 0 < arguments.hostBufferAlignments.toNat) :
    arguments.mask.toNat = arguments.hostBufferAlignments.toNat - 1 :=
  BitVec.toNat_sub_of_le (BitVec.le_def.mpr positive)

/-- What passes the check is zero or a power of two. -/
theorem MemcpyArguments.power_of_checked {arguments : MemcpyArguments}
    (checked : arguments.checked = true) (positive : 0 < arguments.hostBufferAlignments.toNat) :
    ∃ power < 64, arguments.hostBufferAlignments.toNat = 2 ^ power := by
  have word : arguments.hostBufferAlignments &&& arguments.mask = 0 := beq_iff_eq.mp checked
  have bits := congrArg BitVec.toNat word
  rw [BitVec.toNat_and, toNat_mask positive] at bits
  obtain ⟨power, same⟩ :=
    (Nat.and_sub_one_eq_zero_iff_isPowerOfTwo positive.ne').mp bits
  refine ⟨power, ?_, same⟩
  have bound := arguments.hostBufferAlignments.isLt
  rw [same] at bound
  exact (Nat.pow_lt_pow_iff_right Nat.one_lt_two).mp bound

/-- Clearing the bits of a mask takes the remainder away. -/
theorem toNat_and_not_mask (position : BitVec 64) {mask : BitVec 64} {power : ℕ}
    (same : mask.toNat = 2 ^ power - 1) :
    (position &&& ~~~mask).toNat = position.toNat - position.toNat % 2 ^ power := by
  have apart : (position &&& ~~~mask) &&& (position &&& mask) = 0#64 := by
    rw [BitVec.and_comm position mask, ← BitVec.and_assoc, BitVec.and_assoc position,
      BitVec.not_and_self]
    exact (congrArg (· &&& position) BitVec.and_zero).trans BitVec.zero_and
  have joined : (position &&& ~~~mask) ||| (position &&& mask) = position := by
    rw [← BitVec.and_or_distrib_left, BitVec.not_or_self, BitVec.and_allOnes]
  have total := congrArg BitVec.toNat (BitVec.add_eq_or_of_and_eq_zero _ _ apart)
  rw [joined, BitVec.toNat_add_of_and_eq_zero apart, BitVec.toNat_and position mask, same,
    Nat.and_two_pow_sub_one_eq_mod] at total
  omega

theorem MemcpyArguments.toNat_and_not_mask {arguments : MemcpyArguments}
    (checked : arguments.checked = true) (position : BitVec 64) :
    (position &&& ~~~arguments.mask).toNat =
      position.toNat - position.toNat % arguments.hostBufferAlignments.toNat := by
  rcases Nat.eq_zero_or_pos arguments.hostBufferAlignments.toNat with zero | positive
  · have none : arguments.hostBufferAlignments = 0 := BitVec.eq_of_toNat_eq zero
    rw [mask, none]
    simp
  · obtain ⟨power, _, same⟩ := power_of_checked checked positive
    rw [same]
    exact Kernels.toNat_and_not_mask position ((toNat_mask positive).trans (same ▸ rfl))

/-- **The length of a piece.** -/
theorem MemcpyArguments.toNat_maxNbytes {arguments : MemcpyArguments}
    (checked : arguments.checked = true) (offset : BitVec 64) :
    (arguments.maxNbytes offset).toNat = pieceBytes arguments.nbytes.toNat
      arguments.hostBufferOffset.toNat arguments.hostBufferAlignments.toNat offset.toNat := by
  have area : (arguments.alignedAreaEnd offset).toNat =
      areaEnd arguments.hostBufferAlignments.toNat
        ((offset.toNat + arguments.hostBufferOffset.toNat) % 2 ^ 64) % 2 ^ 64 := by
    rw [alignedAreaEnd, BitVec.toNat_add, toNat_and_not_mask checked, BitVec.toNat_add, areaEnd]
  have stop : (arguments.realEnd offset).toNat =
      min ((arguments.hostBufferOffset.toNat + arguments.nbytes.toNat) % 2 ^ 64)
        (arguments.alignedAreaEnd offset).toNat := by
    rw [realEnd, ← BitVec.toNat_add]
    split_ifs with inside
    · exact (min_eq_right (BitVec.lt_def.mp inside).le).symm
    · exact (min_eq_left (not_lt.mp inside)).symm
  have low := offset.isLt
  have high := arguments.hostBufferOffset.isLt
  rw [maxNbytes, BitVec.toNat_sub, BitVec.toNat_sub, stop, area, pieceBytes]
  omega

/-! ### Where the pieces are right -/

section Pieces

variable {nbytes hostOffset alignment offset : ℕ}

theorem pieceBytes_zero :
    pieceBytes nbytes hostOffset 0 offset = (2 ^ 64 - (offset + hostOffset) % 2 ^ 64) % 2 ^ 64 := by
  rw [pieceBytes, areaEnd_zero, Nat.zero_mod, Nat.min_zero, Nat.zero_add]

/-- In the last aligned area the piece goes on to its end. -/
theorem pieceBytes_last (divides : alignment ∣ 2 ^ 64) (positive : 0 < alignment)
    (after : 2 ^ 64 ≤ (offset + hostOffset) % 2 ^ 64 + alignment) :
    pieceBytes nbytes hostOffset alignment offset =
      (2 ^ 64 - (offset + hostOffset) % 2 ^ 64) % 2 ^ 64 := by
  have inside := Nat.mod_lt (offset + hostOffset) (Nat.two_pow_pos 64)
  have upTo := areaEnd_le_of_dvd divides inside
  have bound := Nat.le_of_dvd (Nat.two_pow_pos 64) divides
  have base : alignment ∣ 2 ^ 64 - alignment := Nat.dvd_sub divides (dvd_refl _)
  have whole := le_areaEnd_of_dvd positive base (Nat.sub_le_iff_le_add.mpr after)
  have last : areaEnd alignment ((offset + hostOffset) % 2 ^ 64) = 2 ^ 64 := by omega
  rw [pieceBytes, last, Nat.mod_self, Nat.min_zero, Nat.zero_add]

/-- Before the last aligned area the piece goes on to the end of its own, or to the
end of the buffer. -/
theorem pieceBytes_before (nbytes : ℕ) (divides : alignment ∣ 2 ^ 64)
    (before : (offset + hostOffset) % 2 ^ 64 + alignment < 2 ^ 64) (positive : 0 < alignment) :
    ∃ stop, (offset + hostOffset) % 2 ^ 64 < stop ∧ stop + alignment ≤ 2 ^ 64 ∧
      (∃ base ≤ (offset + hostOffset) % 2 ^ 64, alignment ∣ base ∧ stop = base + alignment) ∧
      pieceBytes nbytes hostOffset alignment offset =
        (min ((hostOffset + nbytes) % 2 ^ 64) stop +
          (2 ^ 64 - (offset + hostOffset) % 2 ^ 64)) % 2 ^ 64 := by
  have base : alignment ∣ 2 ^ 64 - alignment := Nat.dvd_sub divides (dvd_refl _)
  have upTo := areaEnd_le_of_dvd base (Nat.lt_sub_iff_add_lt.mpr before)
  refine ⟨areaEnd alignment ((offset + hostOffset) % 2 ^ 64), lt_areaEnd positive, by omega,
    ⟨_, Nat.sub_le .., Nat.dvd_sub_mod _, rfl⟩, ?_⟩
  have fits : areaEnd alignment ((offset + hostOffset) % 2 ^ 64) < 2 ^ 64 := by omega
  rw [pieceBytes, Nat.mod_eq_of_lt fits]

/-- In the circumstances of `Regular` every piece goes on to the next boundary or to
the end of the buffer. -/
theorem pieceBytes_spec (divides : alignment ≠ 0 → alignment ∣ 2 ^ 64)
    (small : alignment < 2 ^ 64) (inside : hostOffset < 2 ^ 64) (size : nbytes < 2 ^ 64)
    (before : offset < nbytes) (regular : RegularCopy nbytes hostOffset alignment) :
    0 < pieceBytes nbytes hostOffset alignment offset ∧
      offset + pieceBytes nbytes hostOffset alignment offset ≤ nbytes ∧
      NoCrossing alignment (hostOffset + offset)
        (hostOffset + (offset + pieceBytes nbytes hostOffset alignment offset)) := by
  rcases regular with none | ⟨rfl, whole⟩ | ⟨positive, regular⟩
  · omega
  · rw [pieceBytes_zero]
    refine ⟨by omega, by omega, ?_⟩
    rintro area ⟨above, _⟩
    rw [Nat.mul_zero] at above
    exact Nat.not_lt_zero _ above
  · have divides := divides positive.ne'
    by_cases last : 2 ^ 64 ≤ (offset + hostOffset) % 2 ^ 64 + alignment
    · have half := two_mul_le_of_dvd divides small
      rw [pieceBytes_last divides positive last]
      have base : alignment ∣ 2 ^ 64 - alignment := Nat.dvd_sub divides (dvd_refl _)
      exact ⟨by omega, by omega, noCrossing_of_dvd base (by omega) (by omega)⟩
    · obtain ⟨stop, beyond, upTo, ⟨base, below, multiple, rfl⟩, same⟩ :=
        pieceBytes_before nbytes divides (not_le.mp last) positive
      rw [same]
      refine ⟨by omega, by omega, ?_⟩
      by_cases wraps : offset + hostOffset < 2 ^ 64
      · exact noCrossing_of_dvd multiple (by omega) (by omega)
      · exact noCrossing_of_dvd (Nat.dvd_add multiple divides) (by omega) (by omega)

/-- Only in these circumstances can pieces cover the buffer and cross no boundary. -/
theorem regularCopy_of_covered (divides : alignment ≠ 0 → alignment ∣ 2 ^ 64)
    (small : alignment < 2 ^ 64) (inside : hostOffset < 2 ^ 64) (size : nbytes < 2 ^ 64)
    (covered : ∀ position < nbytes, ∃ offset ≤ position,
      position < offset + pieceBytes nbytes hostOffset alignment offset ∧
      offset + pieceBytes nbytes hostOffset alignment offset ≤ nbytes ∧
      NoCrossing alignment (hostOffset + offset)
        (hostOffset + (offset + pieceBytes nbytes hostOffset alignment offset))) :
    RegularCopy nbytes hostOffset alignment := by
  by_contra irregular
  unfold RegularCopy at irregular
  rcases Nat.eq_zero_or_pos alignment with rfl | positive
  · -- one piece up to the end of the words, and empty ones after it
    obtain ⟨offset, below, above, upTo, _⟩ := covered (2 ^ 64 - hostOffset) (by
      obtain ⟨offset, below, above, upTo, _⟩ := covered 0 (by omega)
      rw [pieceBytes_zero] at above upTo
      omega)
    rw [pieceBytes_zero] at above upTo
    omega
  · have divides := divides positive.ne'
    have half := two_mul_le_of_dvd divides small
    -- a piece that begins in front of the last area ends before it, unless the buffer wraps
    have before (offset : ℕ) (outside : (offset + hostOffset) % 2 ^ 64 + alignment < 2 ^ 64) :=
      pieceBytes_before nbytes divides outside positive
    have last (offset : ℕ) (within : 2 ^ 64 ≤ (offset + hostOffset) % 2 ^ 64 + alignment) :
        pieceBytes nbytes hostOffset alignment offset = _ :=
      pieceBytes_last divides positive within
    by_cases fits : hostOffset + nbytes < 2 ^ 64
    · obtain ⟨offset, below, above, upTo, _⟩ :=
        covered (2 ^ 64 - alignment - hostOffset) (by omega)
      rcases lt_or_ge ((offset + hostOffset) % 2 ^ 64 + alignment) (2 ^ 64) with outside | within
      · obtain ⟨stop, _, _, _, same⟩ := before offset outside
        omega
      · have same := last offset within
        omega
    · by_cases outside : hostOffset + alignment < 2 ^ 64
      · obtain ⟨offset, below, above, upTo, within⟩ := covered 0 (by omega)
        obtain rfl : offset = 0 := Nat.le_zero.mp below
        obtain ⟨stop, beyond, bound, _, same⟩ := before 0 (by omega)
        obtain ⟨areas, count⟩ : alignment ∣ 2 ^ 64 - alignment := Nat.dvd_sub divides (dvd_refl _)
        refine within areas ?_
        rw [Nat.mul_comm, ← count]
        omega
      · obtain ⟨offset, below, above, upTo, _⟩ :=
          covered (2 ^ 64 - alignment + (2 ^ 64 - hostOffset)) (by omega)
        rcases lt_or_ge ((offset + hostOffset) % 2 ^ 64 + alignment) (2 ^ 64) with outside | within
        · obtain ⟨stop, _, _, _, same⟩ := before offset outside
          omega
        · have same := last offset within
          omega

end Pieces

/-! ### The loop -/

namespace MemcpyArguments

variable {arguments : MemcpyArguments}

theorem dvd_of_checked (checked : arguments.checked = true)
    (nonzero : arguments.hostBufferAlignments.toNat ≠ 0) :
    arguments.hostBufferAlignments.toNat ∣ 2 ^ 64 := by
  obtain ⟨power, small, same⟩ := power_of_checked checked (Nat.pos_of_ne_zero nonzero)
  exact same ▸ Nat.pow_dvd_pow 2 small.le

theorem pointer_sub (pointer offset : BitVec 64) : pointer + offset - pointer = offset := by
  rw [BitVec.add_comm, BitVec.add_sub_cancel]

@[simp] theorem first_call (offset : BitVec 64) :
    arguments.first (arguments.call offset) = offset.toNat :=
  congrArg BitVec.toNat (pointer_sub arguments.dest offset)

theorem last_call (offset : BitVec 64) : arguments.last (arguments.call offset) =
    offset.toNat + (arguments.maxNbytes offset).toNat :=
  congrArg (· + (arguments.maxNbytes offset).toNat) (first_call offset)

theorem pass_again {state next : BitVec 64 × List MemcpyCall}
    (goes : arguments.pass state = .again next) :
    state.1 < arguments.nbytes ∧ next =
      (state.1 + arguments.maxNbytes state.1, state.2 ++ [arguments.call state.1]) := by
  simp only [pass] at goes
  split_ifs at goes with more
  cases goes
  exact ⟨more, rfl⟩

theorem pass_leave {state : BitVec 64 × List MemcpyCall} {calls : List MemcpyCall}
    (leaves : arguments.pass state = .leave calls) :
    ¬state.1 < arguments.nbytes ∧ calls = state.2 := by
  simp only [pass] at leaves
  split_ifs at leaves with more
  cases leaves
  exact ⟨more, rfl⟩

/-- The calls so far copy the part of the buffer in front of the offset. -/
structure Copied (arguments : MemcpyArguments) (state : BitVec 64 × List MemcpyCall) : Prop where
  upTo : state.1.toNat ≤ arguments.nbytes.toNat
  tiles : Tiles (fun call => (arguments.first call : ℤ)) (fun call => (arguments.last call : ℤ))
    0 state.1.toNat state.2
  source : ∀ call ∈ state.2, call.src - arguments.src = call.dest - arguments.dest
  kind : ∀ call ∈ state.2, call.kind = arguments.direction
  within : ∀ call ∈ state.2, NoCrossing arguments.hostBufferAlignments.toNat
    (arguments.hostBufferOffset.toNat + arguments.first call)
    (arguments.hostBufferOffset.toNat + arguments.last call)

/-- **One pass.** -/
theorem Copied.pass {state : BitVec 64 × List MemcpyCall} (copied : arguments.Copied state)
    (checked : arguments.checked = true) (regular : arguments.Regular)
    (more : state.1 < arguments.nbytes) :
    arguments.Copied
        (state.1 + arguments.maxNbytes state.1, state.2 ++ [arguments.call state.1]) ∧
      state.1.toNat < (state.1 + arguments.maxNbytes state.1).toNat := by
  obtain ⟨positive, upTo, within⟩ := pieceBytes_spec (dvd_of_checked checked)
    arguments.hostBufferAlignments.isLt arguments.hostBufferOffset.isLt arguments.nbytes.isLt
    (BitVec.lt_def.mp more) regular
  rw [← toNat_maxNbytes checked] at positive upTo within
  have size := arguments.nbytes.isLt
  have next : (state.1 + arguments.maxNbytes state.1).toNat =
      state.1.toNat + (arguments.maxNbytes state.1).toNat := by
    rw [BitVec.toNat_add, Nat.mod_eq_of_lt (by omega)]
  refine ⟨⟨?_, ?_, ?_, ?_, ?_⟩, ?_⟩
  · exact next ▸ upTo
  · refine Tiles.concat_iff.mpr ⟨?_, ?_, ?_⟩
    · rw [first_call]
      exact copied.tiles
    · rw [first_call, last_call]
      omega
    · rw [last_call, next]
  · intro call member
    rcases List.mem_append.mp member with before | new
    · exact copied.source call before
    · rw [List.mem_singleton.mp new]
      exact (pointer_sub ..).trans (pointer_sub ..).symm
  · intro call member
    rcases List.mem_append.mp member with before | new
    · exact copied.kind call before
    · rw [List.mem_singleton.mp new]
      rfl
  · intro call member
    rcases List.mem_append.mp member with before | new
    · exact copied.within call before
    · rw [List.mem_singleton.mp new, first_call, last_call]
      exact within
  · rw [next]
    omega

theorem copied_start (arguments : MemcpyArguments) : arguments.Copied (0, []) :=
  ⟨Nat.zero_le _, .nil _, by simp, by simp, by simp⟩

theorem Copied.partitions {state : BitVec 64 × List MemcpyCall} (copied : arguments.Copied state)
    (done : ¬state.1 < arguments.nbytes) : arguments.Partitions state.2 := by
  have all : state.1.toNat = arguments.nbytes.toNat :=
    le_antisymm copied.upTo (BitVec.not_lt.mp done)
  exact ⟨all ▸ copied.tiles, copied.source, copied.kind, copied.within⟩

/-- Every call is the one of some pass. -/
theorem exists_call {passes : ℕ} {calls : List MemcpyCall}
    (runs : run arguments.pass passes (0, []) = some calls) :
    ∀ call ∈ calls, ∃ offset, call = arguments.call offset := by
  refine post_of_run (fun state => ∀ call ∈ state.2, ∃ offset, call = arguments.call offset)
    (fun calls => ∀ call ∈ calls, ∃ offset, call = arguments.call offset) (by simp) ?_ ?_ runs
  · rintro state next made goes call member
    obtain ⟨_, rfl⟩ := pass_again goes
    rcases List.mem_append.mp member with before | new
    · exact made call before
    · exact ⟨_, List.mem_singleton.mp new⟩
  · rintro state left made leaves
    obtain ⟨_, rfl⟩ := pass_leave leaves
    exact made

end MemcpyArguments

/-- **The exact condition.** For all arguments that pass the check, the loop ends
and its calls partition the buffer in order, each within one aligned area, if and
only if the arguments are regular. -/
theorem partitions_iff_regular (arguments : MemcpyArguments) (checked : arguments.checked = true) :
    (∃ calls, arguments.Partitions calls ∧ ∃ enough, ∀ passes, enough < passes →
      lmcacheMemcpyAsync passes arguments = .ok (some calls)) ↔ arguments.Regular := by
  constructor
  · rintro ⟨calls, partitions, enough, runs⟩
    have ran := runs (enough + 1) (Nat.lt_succ_self _)
    rw [lmcacheMemcpyAsync, if_pos checked, Except.ok.injEq] at ran
    refine regularCopy_of_covered (MemcpyArguments.dvd_of_checked checked)
      arguments.hostBufferAlignments.isLt arguments.hostBufferOffset.isLt arguments.nbytes.isLt
      fun position inside => ?_
    obtain ⟨call, member, begins, ends⟩ := partitions.tiles.coversOnce.exists_contains_iff.mpr
      ⟨Int.natCast_nonneg position, Int.ofNat_lt.mpr inside⟩
    have upTo := (partitions.tiles.inside call member).2.2
    have within := partitions.within call member
    obtain ⟨offset, rfl⟩ := MemcpyArguments.exists_call ran call member
    simp only [MemcpyArguments.first_call, MemcpyArguments.last_call,
      MemcpyArguments.toNat_maxNbytes checked] at begins ends upTo within
    exact ⟨offset.toNat, by omega, by omega, by omega, within⟩
  · intro regular
    have total : Total arguments.pass arguments.Copied
        (fun state => arguments.nbytes.toNat - state.1.toNat) arguments.Partitions := by
      refine ⟨fun state next copied goes => ?_, fun state calls copied leaves => ?_⟩
      · obtain ⟨more, rfl⟩ := MemcpyArguments.pass_again goes
        obtain ⟨kept, further⟩ := copied.pass checked regular more
        have before := BitVec.lt_def.mp more
        exact ⟨kept, by simp only; omega⟩
      · obtain ⟨done, rfl⟩ := MemcpyArguments.pass_leave leaves
        exact copied.partitions done
    obtain ⟨calls, partitions, runs⟩ := total.exists_result arguments.copied_start
    refine ⟨calls, partitions, arguments.nbytes.toNat, fun passes enough => ?_⟩
    rw [lmcacheMemcpyAsync, if_pos checked, runs passes enough]

/-- Eight bytes at the sixth position of areas of four bytes. -/
def eightBytes : MemcpyArguments := ⟨0, 4096, 8, .h2d, 6, 4⟩

example : lmcacheMemcpyAsync 9 eightBytes =
    .ok (some [⟨0, 4096, 2, .h2d⟩, ⟨2, 4098, 4, .h2d⟩, ⟨6, 4102, 2, .h2d⟩]) := by decide

theorem exists_partitions_eightBytes :
    ∃ calls, eightBytes.Partitions calls ∧ ∃ enough, ∀ passes, enough < passes →
      lmcacheMemcpyAsync passes eightBytes = .ok (some calls) :=
  (partitions_iff_regular eightBytes (by decide)).mpr (by decide)

/-- One byte and an alignment of zero. -/
def oneByteUnaligned : MemcpyArguments := ⟨0, 4096, 1, .h2d, 0, 0⟩

/-- With an alignment of zero, which passes the check, the loop copies nothing for ever. -/
theorem run_oneByteUnaligned (passes : ℕ) (calls : List MemcpyCall) :
    run oneByteUnaligned.pass passes (0, calls) = none := by
  induction passes generalizing calls with
  | zero => rfl
  | succ passes ih => exact ih (calls ++ [oneByteUnaligned.call 0])

theorem not_partitions_oneByteUnaligned :
    ¬ ∀ arguments : MemcpyArguments, arguments.checked = true →
      ∃ calls, arguments.Partitions calls ∧ ∃ enough, ∀ passes, enough < passes →
        lmcacheMemcpyAsync passes arguments = .ok (some calls) := by
  intro partitions
  obtain ⟨calls, _, enough, runs⟩ := partitions oneByteUnaligned (by decide)
  have ran := runs (enough + 1) (Nat.lt_succ_self _)
  rw [lmcacheMemcpyAsync, if_pos (by decide), run_oneByteUnaligned] at ran
  cases ran

end LMCacheHcu.Kernels
