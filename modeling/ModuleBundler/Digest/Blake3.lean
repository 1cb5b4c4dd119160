/-!
# BLAKE3

The hash function that names and fingerprints are made of: the input is cut into
chunks, every chunk is compressed block by block, and the chunks are joined
pairwise into a binary tree whose root gives the digest.

Main results:

- Theorem {lit}`Blake3.pairUp_length`: joining neighbours halves a level, rounded up.
-/

namespace ModuleBundler
namespace Blake3

/-! ## Words -/

/-- A chaining value. -/
abbrev Words8 := Vector UInt32 8

/-- A block of the message, or the state of a compression. -/
abbrev Words16 := Vector UInt32 16

/-- The initial chaining value. -/
def initial : Words8 :=
  #v[0x6A09E667, 0xBB67AE85, 0x3C6EF372, 0xA54FF53A,
     0x510E527F, 0x9B05688C, 0x1F83D9AB, 0x5BE0CD19]

/-- The first block of a chunk. -/
def chunkStart : UInt32 := 1

/-- The last block of a chunk. -/
def chunkEnd : UInt32 := 2

/-- A node above the chunks. -/
def parentNode : UInt32 := 4

/-- The node that gives the digest. -/
def rootNode : UInt32 := 8

/-- Rotation to the right, for amounts from 1 to 31. -/
def rotateRight (x n : UInt32) : UInt32 :=
  (x >>> n) ||| (x <<< (32 - n))

/-! ## Compression -/

/-- The quarter round on the entries {lit}`a b c d` with two words of the message. -/
def quarter (s : Words16) (a b c d : Fin 16) (x y : UInt32) : Words16 :=
  let va := s[a] + s[b] + x
  let vd := rotateRight (s[d] ^^^ va) 16
  let vc := s[c] + vd
  let vb := rotateRight (s[b] ^^^ vc) 12
  let va := va + vb + y
  let vd := rotateRight (vd ^^^ va) 8
  let vc := vc + vd
  let vb := rotateRight (vb ^^^ vc) 7
  (((s.set a va).set b vb).set c vc).set d vd

/-- One round: four columns, then four diagonals. -/
def round (s m : Words16) : Words16 :=
  let s := quarter s 0 4 8 12 m[0] m[1]
  let s := quarter s 1 5 9 13 m[2] m[3]
  let s := quarter s 2 6 10 14 m[4] m[5]
  let s := quarter s 3 7 11 15 m[6] m[7]
  let s := quarter s 0 5 10 15 m[8] m[9]
  let s := quarter s 1 6 11 12 m[10] m[11]
  let s := quarter s 2 7 8 13 m[12] m[13]
  quarter s 3 4 9 14 m[14] m[15]

/-- The order in which the next round reads the message. -/
def permute (m : Words16) : Words16 :=
  #v[m[2], m[6], m[3], m[10], m[7], m[0], m[4], m[13],
     m[1], m[11], m[12], m[5], m[9], m[14], m[15], m[8]]

/-- The given number of rounds. -/
def rounds : Nat → Words16 → Words16 → Words16
  | 0, s, _ => s
  | n + 1, s, m => rounds n (round s m) (permute m)

/-- What is still to be compressed to a chaining value or to the digest. -/
structure Node where
  chaining : Words8
  block : Words16
  counter : UInt64
  length : UInt32
  flags : UInt32

/-- The compression of a node under its flags and {lit}`extra` ones: the new chaining value. -/
def Node.compress (node : Node) (extra : UInt32) : Words8 :=
  let h := node.chaining
  let s : Words16 :=
    #v[h[0], h[1], h[2], h[3], h[4], h[5], h[6], h[7],
       initial[0], initial[1], initial[2], initial[3],
       node.counter.toUInt32, (node.counter >>> 32).toUInt32, node.length, node.flags ||| extra]
  let s := rounds 7 s node.block
  #v[s[0] ^^^ s[8], s[1] ^^^ s[9], s[2] ^^^ s[10], s[3] ^^^ s[11],
     s[4] ^^^ s[12], s[5] ^^^ s[13], s[6] ^^^ s[14], s[7] ^^^ s[15]]

/-! ## Chunks -/

/-- The byte at a place, zero behind the end. -/
def byteAt (input : ByteArray) (i : Nat) : UInt32 :=
  if h : i < input.size then input[i].toUInt32 else 0

/-- The four bytes from a place on as a word, the lowest first; bytes from {lit}`stop` on count as zero. -/
def wordAt (input : ByteArray) (stop i : Nat) : UInt32 :=
  let byte (k : Nat) : UInt32 := if i + k < stop then byteAt input (i + k) else 0
  byte 0 ||| (byte 1 <<< 8) ||| (byte 2 <<< 16) ||| (byte 3 <<< 24)

/-- The block of the bytes from {lit}`i` up to {lit}`stop`. -/
def blockAt (input : ByteArray) (stop i : Nat) : Words16 :=
  Vector.ofFn fun k => wordAt input stop (i + 4 * k.val)

/-- The last node of a chunk: {lit}`left` bytes of it remain from {lit}`i` on. -/
def chunkFrom (input : ByteArray) (index : Nat) : (blocks : Nat) → (i left : Nat) →
    (chaining : Words8) → (flags : UInt32) → Node
  | 0, i, left, chaining, flags =>
    ⟨chaining, blockAt input (i + left) i, index.toUInt64, left.toUInt32, flags ||| chunkEnd⟩
  | blocks + 1, i, left, chaining, flags =>
    let node : Node := ⟨chaining, blockAt input (i + 64) i, index.toUInt64, 64, flags⟩
    chunkFrom input index blocks (i + 64) (left - 64) (node.compress 0) 0

/-- The node of the chunk with the given number. -/
def chunk (input : ByteArray) (index : Nat) : Node :=
  let first := 1024 * index
  let size := min 1024 (input.size - first)
  chunkFrom input index ((size - 1) / 64) first size initial chunkStart

/-- The nodes of all chunks; the empty input has one. -/
def chunks (input : ByteArray) : List Node :=
  (List.range (max 1 ((input.size + 1023) / 1024))).map (chunk input)

/-! ## The tree -/

/-- The node above two nodes. -/
def join (left right : Node) : Node :=
  let l := left.compress 0
  let r := right.compress 0
  ⟨initial, #v[l[0], l[1], l[2], l[3], l[4], l[5], l[6], l[7],
    r[0], r[1], r[2], r[3], r[4], r[5], r[6], r[7]], 0, 64, parentNode⟩

/-- Neighbours joined; a last node without a neighbour moves up as it is. -/
def pairUp : List Node → List Node
  | left :: right :: rest => join left right :: pairUp rest
  | rest => rest

theorem pairUp_length (nodes : List Node) : (pairUp nodes).length = (nodes.length + 1) / 2 := by
  induction nodes using pairUp.induct with
  | case1 left right rest ih => simp [pairUp, ih]; omega
  | case2 rest h =>
    match rest, h with
    | [], _ => simp [pairUp]
    | [_], _ => simp [pairUp]
    | a :: b :: c, h => exact absurd rfl (h a b c)

/-- The root of the tree over the nodes; {lit}`last` stands in for an empty level. -/
def root (last : Node) : List Node → Node
  | [] => last
  | [node] => node
  | a :: b :: rest => root last (pairUp (a :: b :: rest))
termination_by nodes => nodes.length
decreasing_by
  rw [pairUp_length]
  simp only [List.length_cons]
  omega

/-! ## Digests -/

/-- The four bytes of a word, the lowest first. -/
def wordBytes (w : UInt32) : List UInt8 :=
  [w.toUInt8, (w >>> 8).toUInt8, (w >>> 16).toUInt8, (w >>> 24).toUInt8]

/-- The 32 bytes of the digest. -/
def digest (input : ByteArray) : List UInt8 :=
  ((root (chunk input 0) (chunks input)).compress rootNode).toList.flatMap wordBytes

/-- A digit of the hexadecimal system in lower case. -/
def hexDigit (n : Nat) : Char :=
  Nat.digitChar (n % 16)

/-- Two hexadecimal digits for every byte. -/
def hexBytes (bytes : List UInt8) : List Char :=
  bytes.flatMap fun b => [hexDigit (b.toNat / 16), hexDigit b.toNat]

/-- The digest in lower-case hexadecimal. -/
def hex (input : ByteArray) : String :=
  String.ofList (hexBytes (digest input))

end Blake3
end ModuleBundler
