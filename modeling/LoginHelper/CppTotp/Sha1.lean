/- Unit: LoginHelper/CppTotp/Sha1
   source: src/loginhelper/libcppotp/sha1.cpp
   digest: The hash and the keyed hash as the library computes them, and that they are the standard ones. -/

import LoginHelper.CppTotp.Bytes

set_option autoImplicit false
set_option relaxedAutoImplicit false

namespace LoginHelper.CppTotp.Sha1

open LoginHelper.Foundation
open LoginHelper.Foundation.HashStandard (Chain)
open LoginHelper.CppTotp.Bytes

-- A result is absent when an index leaves its array.
def lrot32 (num : U32) (rotcount : Nat) : U32 := (num <<< rotcount) ||| (num >>> (32 - rotcount))

/-- `words[j]` for `j < 16`. -/
def chunkWord (chunk : ByteString) (j : Nat) : Option U32 := do
  let b0 ← chunk[4 * j + 0]?
  let b1 ← chunk[4 * j + 1]?
  let b2 ← chunk[4 * j + 2]?
  let b3 ← chunk[4 * j + 3]?
  pure ((b0.setWidth 32 <<< 24) ||| (b1.setWidth 32 <<< 16) ||| (b2.setWidth 32 <<< 8) |||
    (b3.setWidth 32 <<< 0))

def extendWords (d0 d1 d2 d3 rotcount : Nat) (words : List U32) : Option (List U32) := do
  let j := words.length
  let w0 ← words[j - d0]?
  let w1 ← words[j - d1]?
  let w2 ← words[j - d2]?
  let w3 ← words[j - d3]?
  pure (words ++ [lrot32 (w0 ^^^ w1 ^^^ w2 ^^^ w3) rotcount])

def unoptimized : List U32 → Option (List U32) := extendWords 3 8 14 16 1

def optimized : List U32 → Option (List U32) := extendWords 6 16 28 32 2

def repeatM (body : List U32 → Option (List U32)) : Nat → List U32 → Option (List U32)
  | 0, words => some words
  | n + 1, words => body words >>= repeatM body n

/-- The array `words[80]` once all three loops are through. -/
def words80 (chunk : ByteString) : Option (List U32) := do
  let first ← (List.range 16).mapM (chunkWord chunk)
  let upTo32 ← repeatM unoptimized 16 first
  repeatM optimized 48 upTo32

/-- The `f` and `k` of round `j`. -/
def roundFK (j : Nat) (b c d : U32) : U32 × U32 :=
  if j < 20 then ((b &&& c) ||| (~~~ b &&& d), 0x5A827999)
  else if j < 40 then (b ^^^ c ^^^ d, 0x6ED9EBA1)
  else if j < 60 then ((b &&& c) ||| (b &&& d) ||| (c &&& d), 0x8F1BBCDC)
  else (b ^^^ c ^^^ d, 0xCA62C1D6)

def sha1Round (words : List U32) (s : Chain) (j : Nat) : Option Chain := do
  let (f, k) := roundFK j s.b s.c s.d
  let w ← words[j]?
  let tmp := lrot32 s.a 5 + f + s.e + k + w
  pure ⟨tmp, s.a, lrot32 s.b 30, s.c, s.d⟩

def sha1Chunk (h : Chain) (chunk : ByteString) : Option Chain := do
  let words ← words80 chunk
  let s ← (List.range 80).foldlM (sha1Round words) h
  pure ⟨h.a + s.a, h.b + s.b, h.c + s.c, h.d + s.d, h.e + s.e⟩

def sha1 (msg : ByteString) : Option ByteString := do
  let sizeBits : U64 := BitVec.ofNat 64 (msg.length * 8)
  let bstr := pushWhile (fun n => n % (512 / 8) ≠ 448 / 8) 0x00 64 (msg ++ [0x80])
  let bstr := bstr ++ u64beToByteString sizeBits
  let h ← (List.range (bstr.length / 64)).foldlM
    (fun h i => sha1Chunk h ((bstr.drop (i * 64)).take 64))
    ⟨0x67452301, 0xEFCDAB89, 0x98BADCFE, 0x10325476, 0xC3D2E1F0⟩
  pure (u32beToByteString h.a ++ u32beToByteString h.b ++ u32beToByteString h.c ++
    u32beToByteString h.d ++ u32beToByteString h.e)

def hmacSha1 (key msg : ByteString) (blockSize : Nat) : Option ByteString := do
  let realKey ← if blockSize < key.length then sha1 key else some key
  let realKey :=
    if realKey.length < blockSize then realKey ++ List.replicate (blockSize - realKey.length) 0x00
    else realKey
  let innerPadKey := realKey.map (· ^^^ 0x36)
  let outerPadKey := realKey.map (· ^^^ 0x5c)
  let innerHash ← sha1 (innerPadKey ++ msg)
  sha1 (outerPadKey ++ innerHash)

theorem lrot32_eq (num : U32) {rotcount : Nat} (h : rotcount < 32) :
    lrot32 num rotcount = num.rotateLeft rotcount := by
  rw [BitVec.rotateLeft_def, Nat.mod_eq_of_lt h]
  rfl

theorem wordOfBytes_eq (b0 b1 b2 b3 : Byte) :
    (b0.setWidth 32 <<< 24) ||| (b1.setWidth 32 <<< 16) ||| (b2.setWidth 32 <<< 8) |||
      (b3.setWidth 32 <<< 0) = HashStandard.wordOfBytes b0 b1 b2 b3 := by
  apply BitVec.eq_of_getLsbD_eq
  intro i hi
  have widths : (HashStandard.wordOfBytes b0 b1 b2 b3).getLsbD i =
      (((b0 ++ b1 : BitVec (8 + 8)) ++ b2 : BitVec (8 + 8 + 8)) ++ b3 :
        BitVec (8 + 8 + 8 + 8)).getLsbD i := rfl
  rw [widths]
  simp only [BitVec.getLsbD_or, BitVec.getLsbD_shiftLeft, BitVec.getLsbD_append,
    BitVec.getLsbD_setWidth]
  interval_cases i <;> simp

private theorem chunkWord_eq (chunk : ByteString) (whole : chunk.length = 64) {j : Nat}
    (hj : j < 16) : chunkWord chunk j = some (HashStandard.blockWord chunk j) := by
  have read (k : Nat) (hk : k < 64) : chunk[k]? = some (chunk.getD k 0) := by
    rw [List.getElem?_eq_getElem (by omega), List.getD_eq_getElem _ _ (by omega)]
  simp only [chunkWord, Nat.add_zero, read (4 * j) (by omega), read (4 * j + 1) (by omega),
    read (4 * j + 2) (by omega), read (4 * j + 3) (by omega), Option.bind_eq_bind,
    Option.bind_some, wordOfBytes_eq]
  rfl

/-- The first `n` words of the standard schedule. -/
def scheduled (chunk : ByteString) (n : Nat) : List U32 :=
  (List.range n).map (HashStandard.schedule chunk)

private theorem scheduled_getElem? (chunk : ByteString) {n k : Nat} (h : k < n) :
    (scheduled chunk n)[k]? = some (HashStandard.schedule chunk k) := by
  simp [scheduled, h]

private theorem extendWords_scheduled (chunk : ByteString) {n d0 d1 d2 d3 rotcount : Nat}
    (reach : d0 ≤ n ∧ d1 ≤ n ∧ d2 ≤ n ∧ d3 ≤ n) (back : 0 < d0 ∧ 0 < d1 ∧ 0 < d2 ∧ 0 < d3)
    (hr : rotcount < 32)
    (next : HashStandard.schedule chunk n =
      (HashStandard.schedule chunk (n - d0) ^^^ HashStandard.schedule chunk (n - d1) ^^^
        HashStandard.schedule chunk (n - d2) ^^^
          HashStandard.schedule chunk (n - d3)).rotateLeft rotcount) :
    extendWords d0 d1 d2 d3 rotcount (scheduled chunk n) = some (scheduled chunk (n + 1)) := by
  have length : (scheduled chunk n).length = n := by simp [scheduled]
  simp only [extendWords, length, scheduled_getElem? chunk (show n - d0 < n by omega),
    scheduled_getElem? chunk (show n - d1 < n by omega),
    scheduled_getElem? chunk (show n - d2 < n by omega),
    scheduled_getElem? chunk (show n - d3 < n by omega), Option.bind_eq_bind, Option.bind_some,
    lrot32_eq _ hr, ← next]
  simp [scheduled, List.range_succ]

private theorem repeatM_scheduled (chunk : ByteString) (body : List U32 → Option (List U32))
    (k n : Nat)
    (step : ∀ m, n ≤ m → body (scheduled chunk m) = some (scheduled chunk (m + 1))) :
    repeatM body k (scheduled chunk n) = some (scheduled chunk (n + k)) := by
  induction k generalizing n with
  | zero => rfl
  | succ k ih =>
    rw [repeatM, step n (Nat.le_refl n), Option.bind_eq_bind, Option.bind_some,
      ih (n + 1) (fun m hm => step m (by omega)), Nat.add_assoc, Nat.add_comm 1 k]

private theorem mapM_some {α β : Type} {f : α → Option β} {g : α → β} (l : List α)
    (h : ∀ a ∈ l, f a = some (g a)) : l.mapM f = some (l.map g) := by
  induction l with
  | nil => rfl
  | cons a l ih =>
    rw [List.mapM_cons, h a (by simp), ih (fun x hx => h x (by simp [hx]))]
    rfl

/-- The three loops of the message schedule stay inside their array and compute
the standard schedule, the last one by its stride of six. -/
theorem words80_eq (chunk : ByteString) (whole : chunk.length = 64) :
    words80 chunk = some (scheduled chunk 80) := by
  have first : (List.range 16).mapM (chunkWord chunk) = some (scheduled chunk 16) := by
    apply mapM_some
    intro j hj
    have hj : j < 16 := List.mem_range.mp hj
    rw [chunkWord_eq chunk whole hj, HashStandard.schedule, if_pos hj]
  have second : repeatM unoptimized 16 (scheduled chunk 16) = some (scheduled chunk 32) :=
    repeatM_scheduled chunk unoptimized 16 16 fun m hm =>
      extendWords_scheduled chunk (by omega) (by omega) (by omega)
        (HashStandard.schedule_recurrence chunk hm)
  have third : repeatM optimized 48 (scheduled chunk 32) = some (scheduled chunk 80) :=
    repeatM_scheduled chunk optimized 48 32 fun m hm =>
      extendWords_scheduled chunk (by omega) (by omega) (by omega)
        (HashStandard.schedule_stride chunk hm)
  rw [words80, first, Option.bind_eq_bind, Option.bind_some, second, Option.bind_some, third]

private theorem choose_or (x y z : U32) : (x &&& y) ||| (~~~ x &&& z) = (x &&& y) ^^^ (~~~ x &&& z) := by
  ext i hi
  simp only [BitVec.getElem_or, BitVec.getElem_and, BitVec.getElem_not, BitVec.getElem_xor]
  cases x[i] <;> simp

private theorem majority_or (x y z : U32) :
    (x &&& y) ||| (x &&& z) ||| (y &&& z) = (x &&& y) ^^^ (x &&& z) ^^^ (y &&& z) := by
  ext i hi
  simp only [BitVec.getElem_or, BitVec.getElem_and, BitVec.getElem_xor]
  cases x[i] <;> cases y[i] <;> cases z[i] <;> rfl

private theorem roundFK_eq (j : Nat) (b c d : U32) :
    roundFK j b c d = (HashStandard.logical j b c d, HashStandard.roundConstant j) := by
  simp only [roundFK, HashStandard.logical, HashStandard.roundConstant, choose_or, majority_or]
  split_ifs <;> rfl

private theorem foldlM_some {α β : Type} {f : β → α → Option β} {g : β → α → β} (l : List α)
    (b : β) (h : ∀ b, ∀ a ∈ l, f b a = some (g b a)) : l.foldlM f b = some (l.foldl g b) := by
  induction l generalizing b with
  | nil => rfl
  | cons a l ih =>
    rw [List.foldlM_cons, h b a (by simp), Option.bind_eq_bind, Option.bind_some,
      ih (g b a) (fun b x hx => h b x (by simp [hx])), List.foldl_cons]

private theorem sha1Round_eq (chunk : ByteString) (s : Chain) {j : Nat} (hj : j < 80) :
    sha1Round (scheduled chunk 80) s j =
      some (HashStandard.round (HashStandard.schedule chunk) s j) := by
  simp only [sha1Round, roundFK_eq, scheduled_getElem? chunk hj, Option.bind_eq_bind,
    Option.bind_some, lrot32_eq _ (show 5 < 32 by decide), lrot32_eq _ (show 30 < 32 by decide)]
  rfl

private theorem sha1Chunk_eq (h : Chain) (chunk : ByteString) (whole : chunk.length = 64) :
    sha1Chunk h chunk = some (HashStandard.compress h chunk) := by
  rw [sha1Chunk, words80_eq chunk whole, Option.bind_eq_bind, Option.bind_some,
    foldlM_some _ h fun s j hj => sha1Round_eq chunk s (List.mem_range.mp hj)]
  rfl

private theorem chain_bytes_eq (h : Chain) :
    u32beToByteString h.a ++ u32beToByteString h.b ++ u32beToByteString h.c ++
      u32beToByteString h.d ++ u32beToByteString h.e = h.bytes := by
  simp only [u32beToByteString_eq, Chain.bytes]

/-- The zero loop runs until 448 bits modulo 512, which takes at most 63 rounds. -/
private theorem padded_eq (msg : ByteString) :
    pushWhile (fun n => n % (512 / 8) ≠ 448 / 8) 0x00 64 (msg ++ [0x80]) ++
      u64beToByteString (BitVec.ofNat 64 (msg.length * 8)) = HashStandard.pad msg := by
  have complete := HashStandard.zeroCount_complete msg.length
  have zeros : pushWhile (fun n => n % (512 / 8) ≠ 448 / 8) 0x00 64 (msg ++ [0x80]) =
      msg ++ [0x80] ++ List.replicate (HashStandard.zeroCount msg.length) 0x00 := by
    apply pushWhile_eq
    · intro j hj
      simp only [List.length_append, List.length_singleton, decide_eq_true_eq]
      intro early
      have := HashStandard.zeroCount_minimal msg.length j early
      omega
    · simp only [List.length_append, List.length_singleton, decide_eq_false_iff_not, not_not]
      exact complete
    · unfold HashStandard.zeroCount
      omega
  rw [zeros, u64beToByteString_eq, BitVec.toNat_ofNat, HashStandard.pad, Nat.mul_comm 8,
    show 2 ^ 64 = 256 ^ 8 by norm_num, HashStandard.bigEndian_mod]
  simp

/-- The hash of the library is SHA-1, and none of its indices leaves its array. -/
theorem sha1_eq (msg : ByteString) : sha1 msg = some (HashStandard.sha1 msg) := by
  have whole := HashStandard.pad_length_mod msg
  have chunks : ∀ h : Chain, ∀ i ∈ List.range ((HashStandard.pad msg).length / 64),
      sha1Chunk h (((HashStandard.pad msg).drop (i * 64)).take 64) =
        some (HashStandard.compress h (((HashStandard.pad msg).drop (64 * i)).take 64)) := by
    intro h i hi
    have hi := List.mem_range.mp hi
    rw [Nat.mul_comm i 64]
    apply sha1Chunk_eq
    simp only [List.length_take, List.length_drop]
    omega
  simp only [sha1]
  rw [padded_eq, foldlM_some _ _ chunks, Option.bind_eq_bind, Option.bind_some, chain_bytes_eq,
    HashStandard.sha1, HashStandard.blocks, List.foldl_map]
  rfl

private theorem zero_padded (key : ByteString) :
    (if key.length < 64 then key ++ List.replicate (64 - key.length) 0x00 else key) =
      key ++ List.replicate (64 - key.length) 0 := by
  split
  · rfl
  · rename_i long
    rw [show 64 - key.length = 0 by omega, List.replicate_zero, List.append_nil]

theorem hmacSha1_eq (key msg : ByteString) :
    hmacSha1 key msg 64 = some (HashStandard.hmac key msg) := by
  unfold hmacSha1 HashStandard.hmac HashStandard.hmacKey
  by_cases long : 64 < key.length
  · simp only [if_pos long, Option.bind_eq_bind, Option.bind_some, zero_padded, sha1_eq]
  · simp only [if_neg long, Option.bind_eq_bind, Option.bind_some, zero_padded, sha1_eq]

end LoginHelper.CppTotp.Sha1
