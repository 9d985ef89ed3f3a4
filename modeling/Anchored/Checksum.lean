/-!
# Checksums

A checksum is the BLAKE3 hash of a text's UTF-8 form, written with 64 hexadecimal digits. The
content is cut into chunks of 1024 bytes, each chunk is hashed block by block into a chaining
value, and the chaining values are joined pairwise in a binary tree whose left half is always the
largest power of two of chunks that leaves something for the right.
-/

namespace Anchored.Checksum

/-- The eight words that are handed from one compression to the next. -/
abbrev Chain := Vector UInt32 8

/-- The sixteen words of a block, and of the state in which it is mixed. -/
abbrev Block := Vector UInt32 16

/-- The chaining value that every chunk starts from. -/
def start : Chain :=
  #v[0x6A09E667, 0xBB67AE85, 0x3C6EF372, 0xA54FF53A, 0x510E527F, 0x9B05688C, 0x1F83D9AB, 0x5BE0CD19]

/-- Bytes in a block. -/
def blockSize : Nat :=
  64

/-- Bytes in a chunk. -/
def chunkSize : Nat :=
  1024

/-- The flag of a chunk's first block. -/
def chunkStart : UInt32 := 1

/-- The flag of a chunk's last block. -/
def chunkEnd : UInt32 := 2

/-- The flag of a block that joins two subtrees. -/
def parent : UInt32 := 4

/-- The flag of the last block of all. -/
def root : UInt32 := 8

/-- A word with its bits moved `n` places to the right, the last ones coming back in front. -/
def rotateRight (w : UInt32) (n : UInt32) : UInt32 :=
  (w >>> n) ||| (w <<< (32 - n))

/-- Mixes two message words into four words of the state. -/
def quarter (v : Block) (a b c d : Fin 16) (x y : UInt32) : Block :=
  let va := v[a] + v[b] + x
  let vd := rotateRight (v[d] ^^^ va) 16
  let vc := v[c] + vd
  let vb := rotateRight (v[b] ^^^ vc) 12
  let va := va + vb + y
  let vd := rotateRight (vd ^^^ va) 8
  let vc := vc + vd
  let vb := rotateRight (vb ^^^ vc) 7
  (((v.set a va).set b vb).set c vc).set d vd

/-- Mixes a block into the state, first down the columns and then along the diagonals. -/
def round (v m : Block) : Block :=
  let v := quarter v 0 4 8 12 m[0] m[1]
  let v := quarter v 1 5 9 13 m[2] m[3]
  let v := quarter v 2 6 10 14 m[4] m[5]
  let v := quarter v 3 7 11 15 m[6] m[7]
  let v := quarter v 0 5 10 15 m[8] m[9]
  let v := quarter v 1 6 11 12 m[10] m[11]
  let v := quarter v 2 7 8 13 m[12] m[13]
  quarter v 3 4 9 14 m[14] m[15]

/-- The order in which the next round takes the words of a block. -/
def permute (m : Block) : Block :=
  #v[m[2], m[6], m[3], m[10], m[7], m[0], m[4], m[13],
    m[1], m[11], m[12], m[5], m[9], m[14], m[15], m[8]]

/-- Seven rounds, with the block's words permuted from each to the next. -/
def rounds (v m : Block) : Block :=
  let step := fun (v, m) => (round v m, permute m)
  (step (step (step (step (step (step (step (v, m)))))))).1

/-- Compresses one block into the next chaining value. -/
def compress (h : Chain) (m : Block) (counter : UInt64) (size flags : UInt32) : Chain :=
  let v : Block := #v[h[0], h[1], h[2], h[3], h[4], h[5], h[6], h[7],
    start[0], start[1], start[2], start[3],
    counter.toUInt32, (counter >>> 32).toUInt32, size, flags]
  let v := rounds v m
  Vector.ofFn fun i => v[i.val] ^^^ v[i.val + 8]

/-- The word of four bytes, the least significant first. A missing byte counts as zero. -/
def word (bytes : List UInt8) : UInt32 :=
  bytes.foldr (fun b w => b.toUInt32 ||| (w <<< 8)) 0

/-- The words of at most 64 bytes, filled up with zeros. -/
def blockOf (bytes : List UInt8) : Block :=
  Vector.ofFn fun i => word ((bytes.drop (4 * i.val)).take 4)

/-- A list cut into pieces of `n`, the last of which may be shorter. The empty list is one piece,
as the empty text is one block and one chunk. -/
def pieces (n : Nat) (bytes : List UInt8) : List (List UInt8) :=
  if _h : bytes.length ≤ n ∨ n = 0 then [bytes]
  else bytes.take n :: pieces n (bytes.drop n)
termination_by bytes.length
decreasing_by
  simp only [List.length_drop]
  omega

/-- Compresses the blocks of a chunk one after another. `final` is added to the flags of the last
one. -/
def chain (counter : UInt64) (final : UInt32) (h : Chain) (flags : UInt32) :
    List (List UInt8) → Chain
  | [] => h
  | [b] => compress h (blockOf b) counter b.length.toUInt32 (flags ||| chunkEnd ||| final)
  | b :: rest =>
    chain counter final (compress h (blockOf b) counter b.length.toUInt32 flags) 0 rest

/-- The chaining value of a chunk. -/
def chunkValue (final : UInt32) (counter : UInt64) (chunk : List UInt8) : Chain :=
  chain counter final start chunkStart (pieces blockSize chunk)

/-- The chaining value of two subtrees. -/
def join (final : UInt32) (left right : Chain) : Chain :=
  compress start (Vector.ofFn fun i => if h : i.val < 8 then left[i.val] else right[i.val - 8])
    0 blockSize.toUInt32 (parent ||| final)

/-- The largest power of two below `n`, for `n` above one. -/
def leftHalf (n : Nat) : Nat :=
  Nat.pow 2 (n - 1).log2

/-- The chaining value of the tree over some chunks, numbered from `counter`. There are at most
`depth` levels. -/
def tree (depth : Nat) (final : UInt32) (counter : Nat) (chunks : List (List UInt8)) : Chain :=
  match depth, chunks with
  | _, [chunk] => chunkValue final counter.toUInt64 chunk
  | 0, _ => start
  | depth + 1, chunks =>
    let left := leftHalf chunks.length
    join final (tree depth 0 counter (chunks.take left))
      (tree depth 0 (counter + left) (chunks.drop left))

/-- The hexadecimal digits of a byte. -/
def hexByte (b : UInt8) : List Char :=
  [Nat.digitChar (b.toNat / 16), Nat.digitChar (b.toNat % 16)]

/-- The four bytes of a word, the least significant first. -/
def bytesOf (w : UInt32) : List UInt8 :=
  [w.toUInt8, (w >>> 8).toUInt8, (w >>> 16).toUInt8, (w >>> 24).toUInt8]

/-- The hash of some bytes. -/
def hash (bytes : List UInt8) : List UInt8 :=
  let chunks := pieces chunkSize bytes
  (tree chunks.length root 0 chunks).toList.flatMap bytesOf

end Anchored.Checksum

namespace Anchored

/-- The checksum of a text. -/
def checksum (content : String) : String :=
  String.ofList ((Checksum.hash content.toUTF8.toList).flatMap Checksum.hexByte)

end Anchored
