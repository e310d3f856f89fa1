/-
# The hash function BLAKE3

The hash of a list of bytes. The input is cut into chunks of 1024 bytes, which are the leaves of a
binary tree; a chunk is folded block by block, a parent joins the values of its two subtrees, and
the root is marked as such. Every step is the same mixing of sixteen words.
-/

namespace Rolewright.Blake3

/-- The words that start the value of every chunk. -/
def initialWords : Array UInt32 :=
  #[0x6A09E667, 0xBB67AE85, 0x3C6EF372, 0xA54FF53A, 0x510E527F, 0x9B05688C, 0x1F83D9AB, 0x5BE0CD19]

/-- The order in which a round takes the words of the round before. -/
def schedule : Array Nat :=
  #[2, 6, 3, 10, 7, 0, 4, 13, 1, 11, 12, 5, 9, 14, 15, 8]

/-- A word with its bits moved round to the right. -/
def rotate (word count : UInt32) : UInt32 :=
  (word >>> count) ||| (word <<< (32 - count))

/-- The word at a position. -/
def word (words : Array UInt32) (i : Nat) : UInt32 :=
  words.getD i 0

/-- Mixes two words of a message into four words of the state. -/
def mix (state : Array UInt32) (a b c d : Nat) (x y : UInt32) : Array UInt32 :=
  let wa := word state a + word state b + x
  let wd := rotate (word state d ^^^ wa) 16
  let wc := word state c + wd
  let wb := rotate (word state b ^^^ wc) 12
  let wa := wa + wb + y
  let wd := rotate (wd ^^^ wa) 8
  let wc := wc + wd
  let wb := rotate (wb ^^^ wc) 7
  (((state.setIfInBounds a wa).setIfInBounds b wb).setIfInBounds c wc).setIfInBounds d wd

/-- The four words that each mixing step of a round touches: first the columns of the state, then
its diagonals. -/
def steps : List (Nat × Nat × Nat × Nat) :=
  [(0, 4, 8, 12), (1, 5, 9, 13), (2, 6, 10, 14), (3, 7, 11, 15),
    (0, 5, 10, 15), (1, 6, 11, 12), (2, 7, 8, 13), (3, 4, 9, 14)]

/-- Mixes all words of a message into the state. -/
def round (message state : Array UInt32) : Array UInt32 :=
  (steps.zipIdx).foldl
    (fun state ((a, b, c, d), i) =>
      mix state a b c d (word message (2 * i)) (word message (2 * i + 1)))
    state

/-- Several rounds, each with the message in a new order. -/
def rounds : Nat → Array UInt32 → Array UInt32 → Array UInt32
  | 0, _, state => state
  | n + 1, message, state => rounds n (schedule.map (word message)) (round message state)

/-- A block together with all that its mixing depends on. -/
structure Block where
  /-- The eight words that the block is folded into. -/
  chaining : Array UInt32
  /-- The sixteen words of the block. -/
  words : Array UInt32
  /-- The number of the chunk. -/
  counter : Nat
  /-- How many bytes of the block count. -/
  size : Nat
  flags : UInt32

namespace Block

/-- The eight words that a block, folded in, gives. -/
def fold (b : Block) : Array UInt32 :=
  let state := b.chaining ++ initialWords.take 4 ++
    #[b.counter.toUInt32, (b.counter / Nat.pow 2 32).toUInt32, b.size.toUInt32, b.flags]
  let mixed := rounds 7 b.words state
  (Array.range 8).map fun i => word mixed i ^^^ word mixed (i + 8)

end Block

/-- The flags of a block: the first and the last of a chunk, a parent, the root. -/
def chunkStart : UInt32 := 1
@[inherit_doc chunkStart] def chunkEnd : UInt32 := 2
@[inherit_doc chunkStart] def parent : UInt32 := 4
@[inherit_doc chunkStart] def root : UInt32 := 8

/-- Four bytes as a word, the lowest first. -/
def wordOfBytes (bytes : List UInt8) : UInt32 :=
  bytes.foldr (fun byte rest => rest * 256 + byte.toUInt32) 0

/-- The words of a block, filled up with zeros. -/
def wordsOfBytes (bytes : List UInt8) : Array UInt32 :=
  (Array.range 16).map fun i => wordOfBytes ((bytes.drop (4 * i)).take 4)

/-- The last block of a chunk, with the blocks before it folded in. -/
def chunkBlock (counter : Nat) (chaining : Array UInt32) (flags : UInt32) (bytes : List UInt8) :
    Block :=
  let first := bytes.take 64
  if _long : 64 < bytes.length then
    let block : Block := ⟨chaining, wordsOfBytes first, counter, 64, flags⟩
    chunkBlock counter block.fold 0 (bytes.drop 64)
  else ⟨chaining, wordsOfBytes first, counter, bytes.length, flags ||| chunkEnd⟩
termination_by bytes.length
decreasing_by simp only [List.length_drop]; omega

/-- How many chunks of several go to the left subtree: the largest power of two below their
number. -/
def leftCount (n : Nat) : Nat :=
  Nat.pow 2 (n - 1).log2

/-- A left subtree has a chunk. -/
theorem leftCount_pos (n : Nat) : 0 < leftCount n :=
  Nat.two_pow_pos _

/-- A left subtree is not the whole tree. -/
theorem leftCount_lt {n : Nat} (several : 1 < n) : leftCount n < n := by
  have nonzero : n - 1 ≠ 0 := by omega
  have below : leftCount n ≤ n - 1 := Nat.log2_self_le nonzero
  omega

/-- How many bytes a chunk has. -/
def chunkSize : Nat := 1024

/-- How many chunks some bytes fill. -/
def chunkCount (bytes : List UInt8) : Nat :=
  (bytes.length + (chunkSize - 1)) / chunkSize

/-- The block at the top of the tree over some bytes, whose first chunk has a number. -/
def top (counter : Nat) (bytes : List UInt8) : Block :=
  let chunks := chunkCount bytes
  if _several : 1 < chunks then
    let left := leftCount chunks
    let first := (top counter (bytes.take (left * chunkSize))).fold
    let second := (top (counter + left) (bytes.drop (left * chunkSize))).fold
    ⟨initialWords, first ++ second, 0, 64, parent⟩
  else chunkBlock counter initialWords chunkStart bytes
termination_by bytes.length
decreasing_by
  all_goals
    have low := leftCount_lt _several
    have positive := leftCount_pos (chunkCount bytes)
    have covered : chunkCount bytes = (bytes.length + 1023) / 1024 := rfl
    change leftCount (chunkCount bytes) < chunkCount bytes at low
    simp only [chunkSize, List.length_take, List.length_drop]
    omega

/-- The four bytes of a word, the lowest first. -/
def bytesOfWord (w : UInt32) : List UInt8 :=
  [w.toUInt8, (w >>> 8).toUInt8, (w >>> 16).toUInt8, (w >>> 24).toUInt8]

/-- The 32 bytes of the hash. -/
def hash (bytes : List UInt8) : List UInt8 :=
  let block := top 0 bytes
  ({ block with flags := block.flags ||| root }).fold.toList.flatMap bytesOfWord

end Rolewright.Blake3
