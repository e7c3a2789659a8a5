import Devlegate.Lib.Octets
import Mathlib.Data.List.Infix

namespace Devlegate.ArchFormat

open Octets

/-!
# The zstd frame of an Arch package

An Arch package is a tar stream in one zstd frame whose blocks are all raw.  The encoder cuts the
stream into blocks of 128 KiB; the decoder reads blocks until one is marked as the last.

* `zstdEncode` / `zstdDecode`: the encoder and the decoder.
* `Blocks`: octets that start with raw blocks, the last of them marked.
* `zstdDecode_eq_ok`: what the decoder accepts, and what it returns.
* `Blocks.unique`: blocks are read in one way only, so no beginning of a frame is one.
* `WholeFrame`: what the format prescribes for the whole input.
-/

/-! ### The encoder -/

/-- What is raised, and a loop that did not come to its end. -/
inductive Raised where
  | archFormat (message : String)
  | unfinished
  deriving DecidableEq, Repr

/-- `payload[position : position + size]`. -/
def part (payload : List UInt8) (position size : Nat) : List UInt8 :=
  (payload.drop position).take size

def zstdMagic : List UInt8 := [0x28, 0xb5, 0x2f, 0xfd]

def descriptor : UInt8 := 0xa0

/-- The most octets that go into one block. -/
def blockSize : Nat := 128 * 1024

/-- `range(0, len(payload), 128 * 1024)`. -/
def offsets (payload : List UInt8) : List Nat :=
  (List.range ((payload.length + blockSize - 1) / blockSize)).map (· * blockSize)

/-- The block of the chunk at an offset. -/
def encodeChunk (payload : List UInt8) (offset : Nat) : List UInt8 :=
  let chunk := part payload offset blockSize
  let last := payload.length ≤ offset + chunk.length
  let blockHeader := (chunk.length <<< 3) ||| (if last then 1 else 0)
  littleEndian 3 blockHeader ++ chunk

/-- The blocks of a payload; an empty one has one empty block. -/
def encodeChunks (payload : List UInt8) : List (List UInt8) :=
  let chunks := (offsets payload).map (encodeChunk payload)
  if chunks.isEmpty then [littleEndian 3 1] else chunks

/-- `_zstd_encode`. -/
def zstdEncode (payload : List UInt8) : Except Raised (List UInt8) :=
  if 1 <<< 32 ≤ payload.length then .error (.archFormat "Arch tar stream is too large")
  else .ok (zstdMagic ++ [descriptor] ++ littleEndian 4 payload.length
    ++ (encodeChunks payload).flatten)

/-! ### The decoder -/

/-- The loop over the blocks, for a number of turns. -/
def decodeBlocks (payload : List UInt8) : Nat → Nat → List UInt8 → Except Raised (List UInt8)
  | 0, _, _ => .error .unfinished
  | turns + 1, position, output =>
    if payload.length < position + 3 then .error (.archFormat "truncated zstd block")
    else
      let block := ofLittleEndian (part payload position 3)
      let size := block >>> 3
      if (block >>> 1) &&& 3 ≠ 0 ∨ payload.length < position + 3 + size then
        .error (.archFormat "unsupported zstd block")
      else
        let output := output ++ part payload (position + 3) size
        if block &&& 1 ≠ 0 then .ok output
        else decodeBlocks payload turns (position + 3 + size) output

/-- The octet that describes the frame. -/
def descriptorOf (payload : List UInt8) : Nat := (payload.getD 4 0).toNat

/-- The width the decoder takes for the field of the content size. -/
def sizeBytes (descriptor : Nat) : Nat := if (descriptor >>> 6) &&& 3 = 2 then 4 else 8

/-- `_zstd_decode`. -/
def zstdDecode (payload : List UInt8) : Except Raised (List UInt8) :=
  if payload.length < 6 ∨ payload.take 4 ≠ zstdMagic then .error (.archFormat "not a zstd frame")
  else
    let descriptor := descriptorOf payload
    if descriptor &&& 0x20 = 0 ∨ descriptor &&& 0x08 ≠ 0 then
      .error (.archFormat "unsupported zstd frame")
    else
      let position := 5 + sizeBytes descriptor
      if payload.length < position then .error (.archFormat "truncated zstd frame")
      else decodeBlocks payload payload.length position []

/-! ### Raw blocks -/

/-- Octets that start with raw blocks, the contents of the blocks, and what stands behind the one
    that is marked as the last. -/
inductive Blocks : List UInt8 → List (List UInt8) → List UInt8 → Prop
  | last {header content tail : List UInt8} :
    header.length = 3 → ofLittleEndian header = 8 * content.length + 1 →
    Blocks (header ++ content ++ tail) [content] tail
  | more {header content rest tail : List UInt8} {contents : List (List UInt8)} :
    header.length = 3 → ofLittleEndian header = 8 * content.length → Blocks rest contents tail →
    Blocks (header ++ content ++ rest) (content :: contents) tail

/-- The bits of a block header that the decoder takes apart. -/
theorem block_bits (block : Nat) :
    block >>> 3 = block / 8 ∧ (block >>> 1) &&& 3 = block / 2 % 4 ∧ block &&& 1 = block % 2 := by
  refine ⟨Nat.shiftRight_eq_div_pow _ 3, ?_, Nat.and_one_is_mod _⟩
  rw [show (3 : Nat) = 2 ^ 2 - 1 from rfl, Nat.and_two_pow_sub_one_eq_mod,
    Nat.shiftRight_eq_div_pow]

/-- The first block of the octets behind a position. -/
theorem drop_eq_block {payload : List UInt8} {position size : Nat}
    (h : position + 3 + size ≤ payload.length) :
    payload.drop position = part payload position 3 ++ part payload (position + 3) size
        ++ payload.drop (position + 3 + size)
      ∧ (part payload position 3).length = 3 ∧ (part payload (position + 3) size).length = size := by
  refine ⟨?_, ?_, ?_⟩
  · rw [part, part, ← List.drop_drop (i := size), List.append_assoc, List.take_append_drop,
      ← List.drop_drop (i := 3), List.take_append_drop]
  · rw [part, List.length_take, List.length_drop]
    omega
  · rw [part, List.length_take, List.length_drop]
    omega

/-- A block is cut off in one way. -/
theorem block_inj {header content rest header' content' rest' : List UInt8}
    (hheader : header.length = 3) (hheader' : header'.length = 3)
    (hsize : ofLittleEndian header / 8 = content.length)
    (hsize' : ofLittleEndian header' / 8 = content'.length)
    (h : header ++ content ++ rest = header' ++ content' ++ rest') :
    header = header' ∧ content = content' ∧ rest = rest' := by
  rw [List.append_assoc, List.append_assoc] at h
  obtain ⟨rfl, hbehind⟩ := List.append_inj h (hheader.trans hheader'.symm)
  obtain ⟨rfl, rfl⟩ := List.append_inj hbehind (hsize.symm.trans hsize')
  exact ⟨rfl, rfl, rfl⟩

/-- **Blocks are read in one way.** -/
theorem Blocks.unique {data tail tail' : List UInt8} {contents contents' : List (List UInt8)}
    (h : Blocks data contents tail) (h' : Blocks data contents' tail') :
    contents = contents' ∧ tail = tail' := by
  induction h generalizing contents' tail' with
  | @last header content tail hheader hblock =>
    generalize hdata : header ++ content ++ tail = data at h'
    cases h' with
    | last hheader' hblock' =>
      obtain ⟨-, rfl, rfl⟩ := block_inj hheader hheader' (by omega) (by omega) hdata
      exact ⟨rfl, rfl⟩
    | more hheader' hblock' hrest =>
      -- One header marks the last block, the other does not.
      obtain ⟨rfl, -⟩ := block_inj hheader hheader' (by omega) (by omega) hdata
      omega
  | @more header content rest tail contents hheader hblock hrest ih =>
    generalize hdata : header ++ content ++ rest = data at h'
    cases h' with
    | last hheader' hblock' =>
      obtain ⟨rfl, -⟩ := block_inj hheader hheader' (by omega) (by omega) hdata
      omega
    | more hheader' hblock' hrest' =>
      obtain ⟨-, rfl, rfl⟩ := block_inj hheader hheader' (by omega) (by omega) hdata
      obtain ⟨rfl, rfl⟩ := ih hrest'
      exact ⟨rfl, rfl⟩

/-- More octets stay behind the last block. -/
theorem Blocks.append {data tail : List UInt8} {contents : List (List UInt8)}
    (h : Blocks data contents tail) (more : List UInt8) :
    Blocks (data ++ more) contents (tail ++ more) := by
  induction h with
  | last hheader hblock =>
    rw [List.append_assoc]
    exact .last hheader hblock
  | more hheader hblock hrest ih =>
    rw [List.append_assoc]
    exact .more hheader hblock ih

/-- A beginning of whole blocks that has whole blocks itself is all of them. -/
theorem Blocks.eq_of_isPrefix {data beginning tail : List UInt8}
    {contents contents' : List (List UInt8)} (h : Blocks data contents [])
    (hbeginning : beginning <+: data) (h' : Blocks beginning contents' tail) :
    beginning = data := by
  obtain ⟨more, rfl⟩ := hbeginning
  obtain ⟨-, hnil⟩ := h.unique (h'.append more)
  obtain ⟨-, rfl⟩ := List.append_eq_nil_iff.mp hnil.symm
  rw [List.append_nil]

/-! ### What the decoder accepts -/

section Block

variable {payload : List UInt8} {position block size : Nat}
  (hblock : ofLittleEndian (part payload position 3) = block) (hsize : block / 8 = size)
include hblock hsize

/-- The octets behind a position start with the block that stands there. -/
theorem blocks_drop_iff {contents : List (List UInt8)} {tail : List UInt8} :
    Blocks (payload.drop position) contents tail ↔
      position + 3 + size ≤ payload.length ∧ block / 2 % 4 = 0
        ∧ (block % 2 = 1 ∧ contents = [part payload (position + 3) size]
            ∧ tail = payload.drop (position + 3 + size)
          ∨ block % 2 = 0 ∧ ∃ others, contents = part payload (position + 3) size :: others
            ∧ Blocks (payload.drop (position + 3 + size)) others tail) := by
  constructor
  · intro h
    generalize hdata : payload.drop position = data at h
    -- The header in the data is the one at the position, so both sizes agree.
    have hheader_eq : ∀ {header content rest : List UInt8}, header.length = 3 →
        ofLittleEndian header / 8 = content.length → header ++ content ++ rest = data →
        part payload position 3 = header ∧ size = content.length
          ∧ position + 3 + size ≤ payload.length := by
      intro header content rest hheader hcontent heq
      have htake : part payload position 3 = header := by
        rw [part, hdata, ← heq, List.append_assoc, List.take_left' hheader]
      have hlen := congrArg List.length (hdata.trans heq.symm)
      simp only [List.length_drop, List.length_append] at hlen
      rw [htake] at hblock
      refine ⟨htake, by omega, by omega⟩
    cases h with
    | @last header content tail hheader hmarked =>
      obtain ⟨htake, hsame, hinside⟩ := hheader_eq hheader (by omega) rfl
      obtain ⟨hdrop, hthree, hlen⟩ := drop_eq_block hinside
      rw [htake] at hblock
      obtain ⟨-, hcontent, htail⟩ := block_inj hheader hthree (by omega)
        (by rw [htake, hlen]; omega) (hdata.symm.trans hdrop)
      exact ⟨hinside, by omega, .inl ⟨by omega, by rw [hcontent], htail⟩⟩
    | @more header content rest tail contents hheader hunmarked hrest =>
      obtain ⟨htake, hsame, hinside⟩ := hheader_eq hheader (by omega) rfl
      obtain ⟨hdrop, hthree, hlen⟩ := drop_eq_block hinside
      rw [htake] at hblock
      obtain ⟨-, hcontent, htail⟩ := block_inj hheader hthree (by omega)
        (by rw [htake, hlen]; omega) (hdata.symm.trans hdrop)
      exact ⟨hinside, by omega, .inr ⟨by omega, contents, by rw [hcontent], htail ▸ hrest⟩⟩
  · rintro ⟨hinside, htype, ⟨hlast, rfl, rfl⟩ | ⟨hlast, others, rfl, hrest⟩⟩
    · obtain ⟨hdrop, hthree, hlen⟩ := drop_eq_block hinside
      rw [hdrop]
      exact .last hthree (by omega)
    · obtain ⟨hdrop, hthree, hlen⟩ := drop_eq_block hinside
      rw [hdrop]
      exact .more hthree (by omega) hrest

end Block

/-- **The loop.** From a position on, the decoder returns the contents of the blocks there; without
    blocks it raises its own error. -/
theorem decodeBlocks_spec (payload : List UInt8) :
    ∀ (turns position : Nat) (output : List UInt8), payload.length - position < 3 * turns →
      (∀ out, decodeBlocks payload turns position output = .ok out ↔
        ∃ contents tail, Blocks (payload.drop position) contents tail
          ∧ out = output ++ contents.flatten)
      ∧ ∀ e, decodeBlocks payload turns position output = .error e →
        ∃ message, e = .archFormat message := by
  intro turns
  induction turns with
  | zero => intro position output h; omega
  | succ turns ih =>
    intro position output hturns
    rw [decodeBlocks]
    generalize hblock : ofLittleEndian (part payload position 3) = block
    obtain ⟨hshift, htype, hlast⟩ := block_bits block
    simp only [blocks_drop_iff hblock rfl, hshift, htype, hlast]
    by_cases hheader : payload.length < position + 3
    · rw [if_pos hheader]
      refine ⟨fun out => ⟨nofun, ?_⟩, fun e he => ⟨_, (Except.error.inj he).symm⟩⟩
      rintro ⟨contents, tail, ⟨hinside, -⟩, -⟩
      omega
    rw [if_neg hheader]
    by_cases hraw : block / 2 % 4 ≠ 0 ∨ payload.length < position + 3 + block / 8
    · rw [if_pos hraw]
      refine ⟨fun out => ⟨nofun, ?_⟩, fun e he => ⟨_, (Except.error.inj he).symm⟩⟩
      rintro ⟨contents, tail, ⟨hinside, hzero, -⟩, -⟩
      omega
    rw [if_neg hraw]
    by_cases hmarked : block % 2 ≠ 0
    · rw [if_pos hmarked]
      refine ⟨fun out => ⟨?_, ?_⟩, nofun⟩
      · intro hout
        refine ⟨_, _, ⟨by omega, by omega, .inl ⟨by omega, rfl, rfl⟩⟩, ?_⟩
        rw [← Except.ok.inj hout, List.flatten_singleton]
      · rintro ⟨contents, tail, ⟨-, -, ⟨-, rfl, rfl⟩ | ⟨hunmarked, -⟩⟩, rfl⟩
        · rw [List.flatten_singleton]
        · omega
    · rw [if_neg hmarked]
      -- The next turn starts at least three octets further.
      obtain ⟨hok, herror⟩ := ih (position + 3 + block / 8)
        (output ++ part payload (position + 3) (block / 8)) (by omega)
      refine ⟨fun out => (hok out).trans ⟨?_, ?_⟩, herror⟩
      · rintro ⟨contents, tail, hrest, rfl⟩
        refine ⟨_, tail, ⟨by omega, by omega, .inr ⟨by omega, contents, rfl, hrest⟩⟩, ?_⟩
        rw [List.flatten_cons, List.append_assoc]
      · rintro ⟨contents, tail, ⟨-, -, ⟨hlast, -⟩ | ⟨-, others, rfl, hrest⟩⟩, rfl⟩
        · omega
        · refine ⟨others, tail, hrest, ?_⟩
          rw [List.flatten_cons, List.append_assoc]

/-- The frame header that the decoder goes by. -/
structure Accepted (payload : List UInt8) : Prop where
  magic_eq : payload.take 4 = zstdMagic
  singleSegment : descriptorOf payload &&& 0x20 ≠ 0
  notReserved : descriptorOf payload &&& 0x08 = 0
  inside : 5 + sizeBytes (descriptorOf payload) ≤ payload.length

theorem sizeBytes_pos (descriptor : Nat) : 4 ≤ sizeBytes descriptor := by
  unfold sizeBytes
  split <;> omega

/-- **What the decoder accepts.** A header that it takes for one, and blocks behind it; it returns
    their contents.  All else it refuses with its own error. -/
theorem zstdDecode_spec (payload : List UInt8) :
    (∀ out, zstdDecode payload = .ok out ↔ Accepted payload ∧ ∃ contents tail,
        Blocks (payload.drop (5 + sizeBytes (descriptorOf payload))) contents tail
          ∧ out = contents.flatten)
      ∧ ∀ e, zstdDecode payload = .error e → ∃ message, e = .archFormat message := by
  have hwidth := sizeBytes_pos (descriptorOf payload)
  unfold zstdDecode
  by_cases hmagic : payload.length < 6 ∨ payload.take 4 ≠ zstdMagic
  · rw [if_pos hmagic]
    refine ⟨fun out => ⟨nofun, ?_⟩, fun e he => ⟨_, (Except.error.inj he).symm⟩⟩
    rintro ⟨haccepted, -⟩
    have hinside := haccepted.inside
    rcases hmagic with hshort | hmagic
    · omega
    · exact absurd haccepted.magic_eq hmagic
  rw [if_neg hmagic]
  rw [not_or, not_not] at hmagic
  simp only
  by_cases hbits : descriptorOf payload &&& 0x20 = 0 ∨ descriptorOf payload &&& 0x08 ≠ 0
  · rw [if_pos hbits]
    refine ⟨fun out => ⟨nofun, ?_⟩, fun e he => ⟨_, (Except.error.inj he).symm⟩⟩
    rintro ⟨haccepted, -⟩
    rcases hbits with hbit | hbit
    · exact absurd hbit haccepted.singleSegment
    · exact absurd haccepted.notReserved hbit
  rw [if_neg hbits]
  rw [not_or, not_not] at hbits
  by_cases hinside : payload.length < 5 + sizeBytes (descriptorOf payload)
  · rw [if_pos hinside]
    refine ⟨fun out => ⟨nofun, ?_⟩, fun e he => ⟨_, (Except.error.inj he).symm⟩⟩
    rintro ⟨haccepted, -⟩
    have hle := haccepted.inside
    omega
  rw [if_neg hinside]
  obtain ⟨hok, herror⟩ := decodeBlocks_spec payload payload.length
    (5 + sizeBytes (descriptorOf payload)) [] (by omega)
  refine ⟨fun out => (hok out).trans ?_, herror⟩
  simp only [List.nil_append]
  constructor
  · intro h
    exact ⟨⟨hmagic.2, hbits.1, hbits.2, by omega⟩, h⟩
  · rintro ⟨-, h⟩
    exact h

/-! ### What the encoder writes -/

section Encoder

variable {payload : List UInt8}

/-- The header of a chunk holds its length and whether it is the last one. -/
theorem encodeChunk_header {offset : Nat} :
    ∃ header, encodeChunk payload offset = header ++ part payload offset blockSize
      ∧ header.length = 3
      ∧ ofLittleEndian header = 8 * (part payload offset blockSize).length
        + if payload.length ≤ offset + (part payload offset blockSize).length then 1 else 0 := by
  refine ⟨_, rfl, length_littleEndian 3 _, ?_⟩
  have hlen : (part payload offset blockSize).length ≤ 131072 := by
    rw [part, List.length_take]
    exact Nat.min_le_left _ _
  have hflag : (if payload.length ≤ offset + (part payload offset blockSize).length then 1 else 0)
      < 2 ^ 3 := by
    split <;> omega
  rw [← Nat.shiftLeft_add_eq_or_of_lt hflag, Nat.shiftLeft_eq, ofLittleEndian_littleEndian]
  · omega
  · generalize (if payload.length ≤ offset + (part payload offset blockSize).length then 1 else 0)
      = flag at hflag
    omega

/-- **The chunks are blocks.** From one chunk to the last, they are raw blocks that hold the rest of
    the payload. -/
theorem blocks_chunks (count first : Nat) (hcount : 0 < count)
    (hlow : (first + count - 1) * blockSize < payload.length)
    (hhigh : payload.length ≤ (first + count) * blockSize) :
    ∃ contents,
      Blocks ((List.range' first count).map fun i => encodeChunk payload (i * blockSize)).flatten
        contents []
      ∧ contents.flatten = payload.drop (first * blockSize)
      ∧ ∀ content ∈ contents, content.length ≤ blockSize := by
  induction count generalizing first with
  | zero => omega
  | succ count ih =>
    obtain ⟨header, hencode, hheader, hblock⟩ :=
      @encodeChunk_header payload (first * blockSize)
    have hchunk : (part payload (first * blockSize) blockSize).length
        = min blockSize (payload.length - first * blockSize) := by
      rw [part, List.length_take, List.length_drop]
    have hsize : (part payload (first * blockSize) blockSize).length ≤ blockSize := by omega
    have hnext : (first + 1) * blockSize = first * blockSize + blockSize := Nat.succ_mul _ _
    rw [List.range'_succ, List.map_cons, List.flatten_cons, hencode]
    rcases Nat.eq_zero_or_pos count with rfl | hmore
    · -- The last chunk holds what is left.
      rw [Nat.zero_add, hnext] at hhigh
      rw [if_pos (by omega)] at hblock
      refine ⟨[part payload (first * blockSize) blockSize], ?_, ?_, by simpa using hsize⟩
      · exact .last hheader hblock
      · rw [List.flatten_singleton, part, List.take_of_length_le]
        rw [List.length_drop]
        omega
    · have hstart : (first + 1) * blockSize ≤ (first + (count + 1) - 1) * blockSize :=
        Nat.mul_le_mul_right _ (by omega)
      rw [if_neg (by omega), Nat.add_zero] at hblock
      have hsame : first + (count + 1) = first + 1 + count := by omega
      rw [hsame] at hlow hhigh
      obtain ⟨contents, hblocks, hflat, hsizes⟩ := ih (first + 1) hmore hlow hhigh
      refine ⟨part payload (first * blockSize) blockSize :: contents, .more hheader hblock hblocks,
        ?_, ?_⟩
      · rw [List.flatten_cons, hflat, hnext, ← List.drop_drop, part, List.take_append_drop]
      · intro content hcontent
        rcases List.mem_cons.mp hcontent with rfl | hcontent
        · exact hsize
        · exact hsizes content hcontent

/-- **The blocks of a payload.** They are raw blocks that hold the payload, with nothing behind. -/
theorem blocks_encodeChunks (payload : List UInt8) :
    ∃ contents, Blocks (encodeChunks payload).flatten contents [] ∧ contents.flatten = payload
      ∧ ∀ content ∈ contents, content.length ≤ blockSize := by
  have hpos : blockSize = 131072 := rfl
  unfold encodeChunks
  cases payload with
  | nil =>
    refine ⟨[[]], ?_, rfl, by simp⟩
    exact @Blocks.last (littleEndian 3 1) [] [] rfl rfl
  | cons b rest =>
    have hlen : 0 < (b :: rest).length := Nat.succ_pos _
    generalize b :: rest = payload at hlen
    generalize hcount : (payload.length + blockSize - 1) / blockSize = count
    have hbounds : (count - 1) * blockSize < payload.length ∧ payload.length ≤ count * blockSize := by
      rw [hpos] at hcount ⊢
      omega
    have hsome : 0 < count := by
      rw [hpos] at hcount
      omega
    obtain ⟨contents, hblocks, hflat, hsizes⟩ := @blocks_chunks payload count 0 hsome
      (by simpa using hbounds.1) (by simpa using hbounds.2)
    rw [Nat.zero_mul, List.drop_zero] at hflat
    have hchunks : (offsets payload).map (encodeChunk payload)
        = (List.range' 0 count).map fun i => encodeChunk payload (i * blockSize) := by
      rw [offsets, hcount, List.map_map, List.range_eq_range']
      rfl
    refine ⟨contents, ?_, hflat, hsizes⟩
    rw [hchunks]
    simp only [List.isEmpty_iff, List.map_eq_nil_iff, List.range'_eq_nil_iff]
    rw [if_neg (by omega)]
    exact hblocks

end Encoder

/-- The decoder accepts the header that the encoder writes. -/
theorem accepted_header (size : Nat) (blocks : List UInt8) :
    Accepted (zstdMagic ++ [descriptor] ++ littleEndian 4 size ++ blocks)
      ∧ 5 + sizeBytes (descriptorOf (zstdMagic ++ [descriptor] ++ littleEndian 4 size ++ blocks)) = 9
      ∧ (zstdMagic ++ [descriptor] ++ littleEndian 4 size ++ blocks).drop 9 = blocks := by
  have hdescriptor : descriptorOf (zstdMagic ++ [descriptor] ++ littleEndian 4 size ++ blocks)
      = 0xa0 := rfl
  rw [hdescriptor]
  refine ⟨⟨rfl, ?_, ?_, ?_⟩, rfl, rfl⟩
  · rw [hdescriptor]
    decide
  · rw [hdescriptor]
    decide
  · rw [hdescriptor]
    simp only [List.length_append, length_littleEndian]
    exact Nat.le_add_right 9 _

/-- **The decoder inverts the encoder.** Every payload below 4 GiB comes back from its frame, and no
    beginning of the frame but the whole is accepted. -/
theorem zstdDecode_zstdEncode {payload : List UInt8} (h : payload.length < 2 ^ 32) :
    ∃ frame, zstdEncode payload = .ok frame ∧ zstdDecode frame = .ok payload
      ∧ ∀ beginning, beginning <+: frame → beginning ≠ frame →
        ∃ message, zstdDecode beginning = .error (.archFormat message) := by
  have hsmall : ¬ 1 <<< 32 ≤ payload.length := by
    rw [Nat.one_shiftLeft]
    omega
  obtain ⟨contents, hblocks, hflat, -⟩ := blocks_encodeChunks payload
  obtain ⟨haccepted, hnine, hdrop⟩ :=
    accepted_header payload.length (encodeChunks payload).flatten
  refine ⟨_, if_neg hsmall, ?_, ?_⟩
  · refine ((zstdDecode_spec _).1 payload).mpr ⟨haccepted, contents, [], ?_, hflat.symm⟩
    rw [hnine, hdrop]
    exact hblocks
  · intro beginning hbeginning hne
    generalize hframe : zstdMagic ++ [descriptor] ++ littleEndian 4 payload.length
      ++ (encodeChunks payload).flatten = frame at hbeginning hne hnine hdrop
    cases hdecode : zstdDecode beginning with
    | error e =>
      obtain ⟨message, rfl⟩ := (zstdDecode_spec beginning).2 e hdecode
      exact ⟨message, rfl⟩
    | ok out =>
      -- The header of the beginning is that of the frame, so its blocks are a beginning as well.
      obtain ⟨hbegun, contents', tail, hblocks', -⟩ := ((zstdDecode_spec _).1 out).mp hdecode
      obtain ⟨more, rfl⟩ := hbeginning
      have hwidth := sizeBytes_pos (descriptorOf beginning)
      have hinside := hbegun.inside
      have hsame : descriptorOf (beginning ++ more) = descriptorOf beginning := by
        rw [descriptorOf, descriptorOf, List.getD_eq_getElem?_getD, List.getD_eq_getElem?_getD,
          List.getElem?_append_left (by omega)]
      rw [hsame] at hnine
      rw [hnine] at hblocks' hinside
      rw [List.drop_append_of_le_length hinside] at hdrop
      have hrest := hblocks.eq_of_isPrefix ⟨more, hdrop⟩ hblocks'
      rw [List.append_right_eq_self.mp (hdrop.trans hrest.symm), List.append_nil] at hne
      exact absurd rfl hne

theorem zstdDecode_zstdEncode_abc :
    ∃ frame, zstdEncode [0x61, 0x62, 0x63] = .ok frame ∧ zstdDecode frame = .ok [0x61, 0x62, 0x63] := by
  obtain ⟨frame, hencode, hdecode, -⟩ :=
    zstdDecode_zstdEncode (show [0x61, 0x62, 0x63].length < 2 ^ 32 by decide)
  exact ⟨frame, hencode, hdecode⟩

/-! ### Whole frames -/

/-- The width of the dictionary id that the two lowest bits of the descriptor prescribe. -/
def dictionaryWidth (descriptor : Nat) : Nat :=
  match descriptor &&& 3 with
  | 0 => 0
  | 1 => 1
  | 2 => 2
  | _ => 4

/-- The width of the content size that the two highest bits prescribe for a single segment. -/
def fieldWidth (descriptor : Nat) : Nat := 1 <<< (descriptor >>> 6)

/-- Where the header ends. -/
def headerEnd (descriptor : Nat) : Nat := 5 + dictionaryWidth descriptor + fieldWidth descriptor

/-- The content size that the header declares; a field of two octets counts from 256. -/
def declaredSize (payload : List UInt8) : Nat :=
  let width := fieldWidth (descriptorOf payload)
  ofLittleEndian (part payload (5 + dictionaryWidth (descriptorOf payload)) width)
    + if width = 2 then 256 else 0

/-- The octets behind a header are raw blocks of at most 128 KiB that end the input. -/
def BlocksFill (payload : List UInt8) (start : Nat) (contents : List (List UInt8)) : Prop :=
  Blocks (payload.drop start) contents [] ∧ ∀ content ∈ contents, content.length ≤ blockSize

/-- The input is one single-segment frame of raw blocks with no checksum and nothing behind, and
    declares the size of what is returned. -/
structure WholeFrame (payload out : List UInt8) : Prop where
  magic_eq : payload.take 4 = zstdMagic
  singleSegment : descriptorOf payload &&& 0x20 ≠ 0
  notReserved : descriptorOf payload &&& 0x08 = 0
  noChecksum : descriptorOf payload &&& 0x04 = 0
  inside : headerEnd (descriptorOf payload) ≤ payload.length
  blocks : ∃ contents, BlocksFill payload (headerEnd (descriptorOf payload)) contents
    ∧ contents.flatten.length = declaredSize payload
  declared : declaredSize payload = out.length

/-- What is accepted is a whole frame. -/
def AcceptsWhole (payload : List UInt8) : Prop :=
  ∀ out, zstdDecode payload = .ok out → WholeFrame payload out

/-- The decoder takes the header for as long as it is: the field has four or eight octets, and there
    is no dictionary id. -/
def WidthRead (descriptor : Nat) : Prop :=
  dictionaryWidth descriptor = 0 ∧ fieldWidth descriptor = sizeBytes descriptor

/-- If the decoder finds its header and blocks, the checksum bit is clear; a header of the width that
    is read is followed by blocks of at most 128 KiB that end the input and together have the
    declared size; behind a header of another width there are such blocks, too, and the octets that
    the decoder takes for the blocks hold as many. -/
def Consistent (payload : List UInt8) : Prop :=
  Accepted payload → ∀ contents tail,
    Blocks (payload.drop (5 + sizeBytes (descriptorOf payload))) contents tail →
    descriptorOf payload &&& 0x04 = 0
      ∧ contents.flatten.length = declaredSize payload
      ∧ (WidthRead (descriptorOf payload) →
          tail = [] ∧ ∀ content ∈ contents, content.length ≤ blockSize)
      ∧ (¬ WidthRead (descriptorOf payload) → ∃ others,
          BlocksFill payload (headerEnd (descriptorOf payload)) others
            ∧ others.flatten.length = declaredSize payload)

theorem headerEnd_of_widthRead {descriptor : Nat} (h : WidthRead descriptor) :
    headerEnd descriptor = 5 + sizeBytes descriptor := by
  rw [headerEnd, h.1, h.2]

theorem Blocks.length_pos {data tail : List UInt8} {contents : List (List UInt8)}
    (h : Blocks data contents tail) : 0 < data.length := by
  cases h with
  | last hheader =>
    simp only [List.length_append]
    omega
  | more hheader =>
    simp only [List.length_append]
    omega

/-- Behind the header there are blocks, so the header is inside the input. -/
theorem BlocksFill.inside {payload : List UInt8} {start : Nat} {contents : List (List UInt8)}
    (h : BlocksFill payload start contents) : start ≤ payload.length := by
  have hpos := h.1.length_pos
  rw [List.length_drop] at hpos
  omega

/-- **When only whole frames are accepted.** -/
theorem acceptsWhole_iff (payload : List UInt8) : AcceptsWhole payload ↔ Consistent payload := by
  constructor
  · intro h haccepted contents tail hblocks
    have hout := ((zstdDecode_spec payload).1 contents.flatten).mpr
      ⟨haccepted, contents, tail, hblocks, rfl⟩
    obtain ⟨-, -, -, hchecksum, -, ⟨others, hfill, hothers⟩, hdeclared⟩ := h _ hout
    refine ⟨hchecksum, hdeclared.symm, ?_, fun _ => ⟨others, hfill, hothers⟩⟩
    intro hwidth
    -- Both readings start at the same octet, so they are the same.
    rw [headerEnd_of_widthRead hwidth] at hfill
    obtain ⟨rfl, rfl⟩ := hblocks.unique hfill.1
    exact ⟨rfl, hfill.2⟩
  · intro h out hout
    obtain ⟨haccepted, contents, tail, hblocks, rfl⟩ := ((zstdDecode_spec payload).1 out).mp hout
    obtain ⟨hchecksum, hdeclared, hread, hother⟩ := h haccepted contents tail hblocks
    have hfill : ∃ others, BlocksFill payload (headerEnd (descriptorOf payload)) others
        ∧ others.flatten.length = declaredSize payload := by
      by_cases hwidth : WidthRead (descriptorOf payload)
      · obtain ⟨rfl, hsizes⟩ := hread hwidth
        refine ⟨contents, ⟨?_, hsizes⟩, hdeclared⟩
        rw [headerEnd_of_widthRead hwidth]
        exact hblocks
      · exact hother hwidth
    obtain ⟨others, hothers, hsize⟩ := hfill
    exact ⟨haccepted.magic_eq, haccepted.singleSegment, haccepted.notReserved, hchecksum,
      hothers.inside, ⟨others, hothers, hsize⟩, hdeclared.symm⟩

/-- The frame of an empty payload and one octet more. -/
def trailingFrame : List UInt8 := zstdMagic ++ [0xa0, 0, 0, 0, 0, 1, 0, 0, 0]

theorem not_acceptsWhole_trailingFrame : ¬ AcceptsWhole trailingFrame := by
  intro h
  have hout : zstdDecode trailingFrame = .ok [] := by decide
  obtain ⟨-, -, -, -, -, ⟨contents, ⟨hblocks, -⟩, -⟩, -⟩ := h _ hout
  have hread : Blocks (trailingFrame.drop 9) [[]] [0] := @Blocks.last [1, 0, 0] [] [0] rfl rfl
  exact absurd (hblocks.unique hread).2 (by decide)

/-- Every frame that the encoder writes is whole. -/
theorem wholeFrame_zstdEncode {payload frame : List UInt8} (h : zstdEncode payload = .ok frame) :
    WholeFrame frame payload := by
  unfold zstdEncode at h
  split at h
  · cases h
  rename_i hsmall
  rw [Nat.one_shiftLeft, not_le] at hsmall
  obtain ⟨contents, hblocks, hflat, hsizes⟩ := blocks_encodeChunks payload
  obtain ⟨haccepted, -, hdrop⟩ := accepted_header payload.length (encodeChunks payload).flatten
  obtain rfl := Except.ok.inj h
  generalize hframe : zstdMagic ++ [descriptor] ++ littleEndian 4 payload.length
    ++ (encodeChunks payload).flatten = frame at haccepted hdrop
  have hdescriptor : descriptorOf frame = 0xa0 := by
    rw [← hframe]
    rfl
  have hfield : part frame 5 4 = littleEndian 4 payload.length := by
    rw [← hframe]
    rfl
  have hdeclared : declaredSize frame = payload.length := by
    have hwidth : fieldWidth 0xa0 = 4 ∧ dictionaryWidth 0xa0 = 0 := by decide
    rw [declaredSize, hdescriptor, hwidth.1, hwidth.2]
    simp only [Nat.add_zero]
    rw [hfield, ofLittleEndian_littleEndian hsmall]
    rfl
  have hfill : BlocksFill frame (headerEnd (descriptorOf frame)) contents := by
    have hend : headerEnd 0xa0 = 9 := by decide
    rw [hdescriptor, hend]
    exact ⟨hdrop ▸ hblocks, hsizes⟩
  refine ⟨haccepted.magic_eq, haccepted.singleSegment, haccepted.notReserved, ?_, hfill.inside,
    ⟨contents, hfill, ?_⟩, hdeclared⟩
  · rw [hdescriptor]
    decide
  · rw [hflat, hdeclared]

end Devlegate.ArchFormat
