import Arvik.Core.BodyCollection
import Arvik.Foundation.Polled

/-!
# Chunked bodies

`Body::from_chunks` keeps the non-empty chunks in a queue and, beside it, a machine word that counts
the bytes still in the queue: the size hint is that word, and hyper frames the response by it. The
word is the sum of the lengths when the body is made, and every poll subtracts from it, saturating.

What the counter is for is `AdvertisesExactly`. Polls follow the queue whatever the counter says
(`pollFrame_follows`); the counter equals the bytes in the queue as long as it did in the beginning
(`Counts`). So all depends on the sum at the beginning, which is taken in a machine word:
`advertisesExactly_iff`.

That a sum can exceed a machine word although every chunk is in memory is due to sharing. A chunk is
a reference to a buffer, and clones of it cost nothing, so the clones of one buffer of a gibibyte
make a body of any length; the counterexample is made in this way. The converse needs no poll at
all: the first hint is the sum reduced to the word, so a hint that is exact is the whole length, and
that is below the word's bound.
-/

/-- The difference, or zero if it is negative. -/
def saturatingSub (a b : UInt64) : UInt64 :=
  if a < b then 0 else a - b

theorem toNat_saturatingSub (a b : UInt64) :
    (saturatingSub a b).toNat = a.toNat - b.toNat := by
  rw [saturatingSub]
  split
  · next h =>
    rw [Nat.sub_eq_zero_of_le (Nat.le_of_lt (UInt64.lt_iff_toNat_lt.1 h))]
    rfl
  · next h => exact UInt64.toNat_sub_of_le a b (UInt64.not_lt.1 h)

/-- A queue of chunks and the number of bytes in it. -/
structure ChunksBody where
  chunks : List Bytes
  remaining : UInt64
  deriving DecidableEq

namespace ChunksBody

variable {H : Type}

/-- One poll takes the first chunk off the queue. -/
def pollFrame (self : ChunksBody) : Option (Except BoxError (Frame H)) × ChunksBody :=
  match self.chunks with
  | [] => (none, self)
  | chunk :: chunks =>
    (some (.ok (.data chunk)),
      { chunks, remaining := saturatingSub self.remaining (UInt64.ofNat chunk.length) })

/-- No chunk is left. -/
def isEndStream (self : ChunksBody) : Bool :=
  self.chunks.isEmpty

/-- The counter, as an exact hint. -/
def sizeHint (self : ChunksBody) : SizeHint :=
  ⟨self.remaining.toNat, some self.remaining.toNat⟩

end ChunksBody

/-- The bodies that are made of chunks: one without any is the empty body. -/
inductive BodyKind
  | empty
  | chunks (body : ChunksBody)
  deriving DecidableEq

namespace BodyKind

variable {H : Type}

/-- The body of a list of chunks; the empty ones are left out. The sum of the lengths wraps. -/
def fromChunks (chunks : List Bytes) : BodyKind :=
  let chunks := chunks.filter fun chunk ↦ !chunk.isEmpty
  if chunks.isEmpty then .empty
  else
    .chunks
      { chunks, remaining := chunks.foldl (fun sum chunk ↦ sum + UInt64.ofNat chunk.length) 0 }

/-- One poll. -/
def pollFrame : BodyKind → Option (Except BoxError (Frame H)) × BodyKind
  | .empty => (none, .empty)
  | .chunks body => (body.pollFrame.1, .chunks (body.pollFrame (H := H)).2)

/-- The body is known to have ended. -/
def isEndStream : BodyKind → Bool
  | .empty => true
  | .chunks body => body.isEndStream

/-- The bounds on the data still to come. -/
def sizeHint : BodyKind → SizeHint
  | .empty => ⟨0, some 0⟩
  | .chunks body => body.sizeHint

/-- A body as a source of frames. -/
def source (H : Type) : Polled BodyKind (Except BoxError (Frame H)) where
  poll := pollFrame

/-- Collect the entire body; `none` if it does not end within `fuel` polls. -/
def toBytes (H : Type) (fuel : ℕ) (self : BodyKind) : Option (Except BoxError Bytes) :=
  ((source H).drain fuel self).map Body.collect

/-! ### What the hint is for -/

/-- The chunks that are sent. -/
def sent (chunks : List Bytes) : List Bytes :=
  chunks.filter fun chunk ↦ !chunk.isEmpty

/-- The body of a list of chunks yields the non-empty chunks in order and then ends. Before every
poll the size hint is the number of bytes still to be yielded, and the body is known to have ended
exactly if there are none. So the length that is announced is that of the data. -/
structure AdvertisesExactly (H : Type) (chunks : List Bytes) : Prop where
  yields : ∀ n, (source H).answer n (fromChunks chunks) =
    (sent chunks)[n]?.map fun chunk ↦ .ok (.data chunk)
  hint : ∀ n, ((source H).after n (fromChunks chunks)).sizeHint =
    ⟨((sent chunks).drop n).flatten.length, some ((sent chunks).drop n).flatten.length⟩
  ended : ∀ n, ((source H).after n (fromChunks chunks)).isEndStream ↔
    ((sent chunks).drop n).flatten.length = 0
  collected : ∀ fuel > (sent chunks).length,
    (fromChunks chunks).toBytes H fuel = some (.ok chunks.flatten)
  contentLength : (fromChunks chunks).sizeHint.exact = some chunks.flatten.length

/-! ### The queue -/

/-- The chunks still to come. -/
def queue : BodyKind → List Bytes
  | .empty => []
  | .chunks body => body.chunks

theorem queue_fromChunks (chunks : List Bytes) : (fromChunks chunks).queue = sent chunks := by
  rw [fromChunks, ← sent]
  rcases h : sent chunks with - | ⟨chunk, rest⟩
  · rfl
  · rfl

/-- The polls follow the queue, whatever the counter says. -/
theorem pollFrame_follows (H : Type) :
    (source H).Follows fun self ↦ self.queue.map fun chunk ↦ .ok (.data chunk) where
  head self := by
    rcases self with - | ⟨- | ⟨chunk, chunks⟩, remaining⟩
    · rfl
    · rfl
    · rfl
  tail self := by
    rcases self with - | ⟨- | ⟨chunk, chunks⟩, remaining⟩
    · rfl
    · rfl
    · rfl

theorem queue_after (n : ℕ) (self : BodyKind) :
    ((source H).after n self).queue = self.queue.drop n := by
  have h := (pollFrame_follows H).queue_after n self
  rw [← List.map_drop] at h
  refine List.map_injective_iff.2 (fun a b hab ↦ ?_) h
  cases hab
  rfl

/-- An empty chunk is not sent, and makes no difference to the data. -/
theorem flatten_sent (chunks : List Bytes) : (sent chunks).flatten = chunks.flatten :=
  List.flatten_filter_not_isEmpty

theorem flatten_eq_nil_of_sent {chunks : List Bytes} {n : ℕ}
    (h : ((sent chunks).drop n).flatten = []) : (sent chunks).drop n = [] := by
  rcases hdrop : (sent chunks).drop n with - | ⟨chunk, rest⟩
  · rfl
  · have hmem : chunk ∈ sent chunks :=
      List.mem_of_mem_drop (hdrop ▸ List.mem_cons_self : chunk ∈ (sent chunks).drop n)
    have hchunk : chunk = [] := List.flatten_eq_nil_iff.1 h chunk (hdrop ▸ List.mem_cons_self)
    rw [sent, List.mem_filter, hchunk] at hmem
    exact absurd hmem.2 (by decide)

/-! ### The counter -/

/-- The hint is the number of bytes in the queue. -/
def Counts (self : BodyKind) : Prop :=
  self.sizeHint = ⟨self.queue.flatten.length, some self.queue.flatten.length⟩

theorem counts_chunks_iff {body : ChunksBody} :
    Counts (.chunks body) ↔ body.remaining.toNat = body.chunks.flatten.length := by
  rw [Counts, sizeHint, ChunksBody.sizeHint, SizeHint.mk.injEq, Option.some.injEq, and_self]
  rfl

/-- A poll keeps the counter right. -/
theorem Counts.pollFrame {self : BodyKind} (h : self.Counts) :
    (BodyKind.pollFrame (H := H) self).2.Counts := by
  rcases self with - | ⟨- | ⟨chunk, chunks⟩, remaining⟩
  · rfl
  · exact h
  · have hremaining : remaining.toNat = chunk.length + chunks.flatten.length := by
      rw [← List.length_append, ← List.flatten_cons]
      exact counts_chunks_iff.1 h
    have hlt := remaining.toNat_lt
    refine counts_chunks_iff.2 ?_
    show (saturatingSub remaining (UInt64.ofNat chunk.length)).toNat = chunks.flatten.length
    rw [toNat_saturatingSub, UInt64.toNat_ofNat', Nat.mod_eq_of_lt (by omega)]
    omega

/-- A sum in a machine word is the sum, up to multiples of `2 ^ 64`. -/
theorem foldl_add_lengths (chunks : List Bytes) (sum : ℕ) :
    chunks.foldl (fun sum chunk ↦ sum + UInt64.ofNat chunk.length) (UInt64.ofNat sum) =
      UInt64.ofNat (sum + chunks.flatten.length) := by
  induction chunks generalizing sum with
  | nil => rfl
  | cons chunk chunks ih =>
    rw [List.foldl_cons, ← UInt64.ofNat_add, ih, List.flatten_cons, List.length_append,
      Nat.add_assoc]

theorem sizeHint_fromChunks (chunks : List Bytes) :
    (fromChunks chunks).sizeHint =
      ⟨chunks.flatten.length % 2 ^ 64, some (chunks.flatten.length % 2 ^ 64)⟩ := by
  rw [fromChunks, ← sent, ← flatten_sent]
  rcases h : sent chunks with - | ⟨chunk, rest⟩
  · rfl
  · show ChunksBody.sizeHint ⟨_, (chunk :: rest).foldl _ (UInt64.ofNat 0)⟩ = _
    rw [foldl_add_lengths, ChunksBody.sizeHint, UInt64.toNat_ofNat', Nat.zero_add]

/-- The counter starts right if the sum of the lengths fits into a machine word. -/
theorem counts_fromChunks {chunks : List Bytes} (h : chunks.flatten.length < 2 ^ 64) :
    (fromChunks chunks).Counts := by
  rw [Counts, sizeHint_fromChunks, queue_fromChunks, flatten_sent, Nat.mod_eq_of_lt h]

/-- The counter stays right during a run. -/
theorem counts_after {chunks : List Bytes} (h : chunks.flatten.length < 2 ^ 64) (n : ℕ) :
    ((source H).after n (fromChunks chunks)).Counts :=
  (source H).after_induction (fun _ ↦ Counts.pollFrame) (counts_fromChunks h) n

/-! ### When the lengths are exact -/

theorem isEndStream_iff (self : BodyKind) : self.isEndStream ↔ self.queue = [] := by
  rcases self with - | ⟨chunks, remaining⟩
  · exact iff_of_true rfl rfl
  · exact List.isEmpty_iff

theorem collect_map_data (chunks : List Bytes) :
    Body.collect (chunks.map fun chunk ↦ .ok (.data chunk) : Polls H) = .ok chunks.flatten := by
  induction chunks with
  | nil => rfl
  | cons chunk chunks ih =>
    rw [List.map_cons, Body.collect, ih]
    rfl

/-- A collecting reader gets the data, whatever the counter says. -/
theorem toBytes_fromChunks {chunks : List Bytes} {fuel : ℕ} (h : (sent chunks).length < fuel) :
    (fromChunks chunks).toBytes H fuel = some (.ok chunks.flatten) := by
  have hfuel : ((fromChunks chunks).queue.map fun chunk ↦
      (.ok (.data chunk) : Except BoxError (Frame H))).length < fuel := by
    rwa [List.length_map, queue_fromChunks]
  rw [toBytes, (pollFrame_follows H).drain_eq hfuel, Option.map_some, collect_map_data,
    queue_fromChunks, flatten_sent]

/-- An announced length that is right fits into a machine word. -/
theorem AdvertisesExactly.lt {chunks : List Bytes} (h : AdvertisesExactly H chunks) :
    chunks.flatten.length < 2 ^ 64 := by
  have hexact := h.contentLength
  rw [sizeHint_fromChunks, SizeHint.exact, if_pos rfl, Option.some.injEq] at hexact
  rw [← hexact]
  exact Nat.mod_lt _ (by decide)

/-- **When a chunked body announces its length**: the lengths of the chunks add up to less than `2 ^
64`. Below that the counter is the length of what is left at every poll, and at that bound the first
hint is wrong already. -/
theorem advertisesExactly_iff (H : Type) (chunks : List Bytes) :
    AdvertisesExactly H chunks ↔ chunks.flatten.length < 2 ^ 64 := by
  refine ⟨AdvertisesExactly.lt, fun hlt ↦ ?_⟩
  have hqueue : ∀ n, ((source H).after n (fromChunks chunks)).queue = (sent chunks).drop n :=
    fun n ↦ by rw [queue_after, queue_fromChunks]
  refine ⟨fun n ↦ ?_, fun n ↦ ?_, fun n ↦ ?_, fun fuel hfuel ↦ toBytes_fromChunks hfuel, ?_⟩
  · rw [(pollFrame_follows H).answer_eq, queue_fromChunks, List.getElem?_map]
  · have hcounts := counts_after (H := H) hlt n
    rwa [Counts, hqueue] at hcounts
  · rw [isEndStream_iff, hqueue, List.length_eq_zero_iff]
    exact ⟨fun hnil ↦ by rw [hnil]; rfl, flatten_eq_nil_of_sent⟩
  · rw [sizeHint_fromChunks, Nat.mod_eq_of_lt hlt, SizeHint.exact, if_pos rfl]

/-- Of `2 ^ 34` chunks of 1 GiB no length is announced. -/
theorem not_advertisesExactly_gibibytes :
    ¬ AdvertisesExactly Unit (List.replicate (2 ^ 34) (List.replicate (2 ^ 30) 0)) := by
  intro h
  have hlt := h.lt
  rw [List.length_flatten, List.map_replicate, List.sum_replicate_nat,
    List.length_replicate] at hlt
  exact absurd hlt (by decide)

/-- Two chunks and an empty one: the hint counts down with the chunks. -/
example : (fromChunks [[1, 2], [], [3]]).sizeHint.exact = some 3 ∧
    ((source Unit).after 1 (fromChunks [[1, 2], [], [3]])).sizeHint.exact = some 1 := by
  decide

end BodyKind
