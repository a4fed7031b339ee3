import Attestor.Bytes
import Attestor.Width

namespace Attestor.Hash.Blake3

def initial : Vector UInt32 8 :=
  #v[0x6a09e667, 0xbb67ae85, 0x3c6ef372, 0xa54ff53a, 0x510e527f, 0x9b05688c, 0x1f83d9ab, 0x5be0cd19]

/-- What a block is: the first or last of its chunk, a branch of the tree, the tree's root. -/
inductive Flag where
  | chunkStart
  | chunkEnd
  | parent
  | root

def Flag.bit : Flag → UInt32
  | chunkStart => 1
  | chunkEnd => 2
  | parent => 4
  | root => 8

def rotate (x n : UInt32) : UInt32 :=
  (x >>> n) ||| (x <<< (32 - n))

/-- Mixes the words `x` and `y` into four words of the state. -/
def mix (v : Vector UInt32 16) (a b c d : Fin 16) (x y : UInt32) : Vector UInt32 16 :=
  let v := v.set a (v[a] + v[b] + x)
  let v := v.set d (rotate (v[d] ^^^ v[a]) 16)
  let v := v.set c (v[c] + v[d])
  let v := v.set b (rotate (v[b] ^^^ v[c]) 12)
  let v := v.set a (v[a] + v[b] + y)
  let v := v.set d (rotate (v[d] ^^^ v[a]) 8)
  let v := v.set c (v[c] + v[d])
  v.set b (rotate (v[b] ^^^ v[c]) 7)

/-- Columns first, then diagonals. -/
def round (v m : Vector UInt32 16) : Vector UInt32 16 :=
  let v := mix v 0 4 8 12 m[0] m[1]
  let v := mix v 1 5 9 13 m[2] m[3]
  let v := mix v 2 6 10 14 m[4] m[5]
  let v := mix v 3 7 11 15 m[6] m[7]
  let v := mix v 0 5 10 15 m[8] m[9]
  let v := mix v 1 6 11 12 m[10] m[11]
  let v := mix v 2 7 8 13 m[12] m[13]
  mix v 3 4 9 14 m[14] m[15]

/-- The order in which the next round takes the message words. -/
def permute (m : Vector UInt32 16) : Vector UInt32 16 :=
  #v[m[2], m[6], m[3], m[10], m[7], m[0], m[4], m[13],
    m[1], m[11], m[12], m[5], m[9], m[14], m[15], m[8]]

def rounds : Nat → Vector UInt32 16 → Vector UInt32 16 → Vector UInt32 16
  | 0, v, _ => v
  | n + 1, v, m => rounds n (round v m) (permute m)

/-- All that determines one compression. -/
structure Node where
  chaining : Vector UInt32 8
  block : Bytes
  counter : Nat
  flags : List Flag

/-- The block's sixteen little-endian words, missing bytes being zero. -/
def words (block : Bytes) : Vector UInt32 16 :=
  Vector.ofFn fun i => UInt32.ofNat (Bytes.toNatLittle ((block.drop (4 * i.val)).take 4))

def Node.compress (n : Node) : Vector UInt32 8 :=
  let chain := n.chaining
  let flags := n.flags.foldl (fun bits f => bits ||| f.bit) 0
  let start : Vector UInt32 16 :=
    #v[chain[0], chain[1], chain[2], chain[3], chain[4], chain[5], chain[6], chain[7],
      0x6a09e667, 0xbb67ae85, 0x3c6ef372, 0xa54ff53a,
      UInt32.ofNat n.counter, UInt32.ofNat (n.counter / twoPow 32),
      UInt32.ofNat n.block.length, flags]
  let v := rounds 7 start (words n.block)
  #v[v[0] ^^^ v[8], v[1] ^^^ v[9], v[2] ^^^ v[10], v[3] ^^^ v[11],
    v[4] ^^^ v[12], v[5] ^^^ v[13], v[6] ^^^ v[14], v[7] ^^^ v[15]]

def wordBytes (v : Vector UInt32 8) : Bytes :=
  v.toList.flatMap fun w => Bytes.littleEndian 4 w.toNat

/-- The last block's node of a chunk, after its earlier blocks have been compressed. -/
def chunkNode (counter : Nat) (flags : List Flag) (chaining : Vector UInt32 8) : List Bytes → Node
  | [] => ⟨chaining, [], counter, flags ++ [.chunkEnd]⟩
  | [block] => ⟨chaining, block, counter, flags ++ [.chunkEnd]⟩
  | block :: rest => chunkNode counter [] (Node.compress ⟨chaining, block, counter, flags⟩) rest

def leaf (counter : Nat) (chunk : Bytes) : Node :=
  chunkNode counter [.chunkStart] initial (chunk.chunks 64)

def branch (left right : Node) : Node :=
  ⟨initial, wordBytes left.compress ++ wordBytes right.compress, 0, [.parent]⟩

/-- The largest power of two below `n`, for `n` above one. -/
def leftSize (n : Nat) : Nat :=
  twoPow (Nat.log2 (n - 1))

theorem leftSize_pos (n : Nat) : 0 < leftSize n :=
  Nat.two_pow_pos _

theorem leftSize_lt {n : Nat} (h : 1 < n) : leftSize n < n := by
  have : leftSize n ≤ n - 1 := Nat.log2_self_le (by omega)
  omega

/-- The tree over the chunks, the first of which is number `counter`. -/
def tree (counter : Nat) (chunks : List Bytes) : Node :=
  if _h : 1 < chunks.length then
    let size := leftSize chunks.length
    branch (tree counter (chunks.take size)) (tree (counter + size) (chunks.drop size))
  else
    leaf counter (chunks.headD [])
  termination_by chunks.length
  decreasing_by
    · have := leftSize_lt _h
      simp only [List.length_take]
      omega
    · have := leftSize_pos chunks.length
      simp only [List.length_drop]
      omega

/-- The hash of a byte string. Chunks of 1024 bytes are the leaves of a binary tree whose left
branches are complete. -/
def hash (message : Bytes) : Bytes :=
  let top := tree 0 (message.chunks 1024)
  wordBytes (Node.compress { top with flags := top.flags ++ [Flag.root] })

end Attestor.Hash.Blake3
