import Arvik.Core.BodyCollection
import Arvik.Middleware.BodyLimit

/-!
# The counter of the body cap

A reader may go on polling a capped body after the cap was crossed. What the cap should do then is
`CapsAt`: the longest run of frames within the limit passes unchanged, then comes the error, and no
data after it. `capsAt_iff` says for which streams the counter of `LimitedBody` does that: those of
which no data frame ends over the limit with a counter that is within it (`NoWrap`).

## How the proof goes

A data frame is among the answers of the capped stream exactly if the counter is within the limit at
its end (`mem_polls_iff`), where the counter is the sum of all data frames up to it, delivered or
not. On the other side every stream splits into a longest run that fits and the rest
(`exists_longest`), and the run passes whatever comes behind it (`polls_append`). The two together
give both directions: a frame of the rest gets through if and only if it wraps.

A frame that wraps the counter has to exist for the defect to be seen, and it does, although no
buffer is that long: a stream may yield the same buffer again and again (`gibibyte`). The
counterexample counts frames and never evaluates one.
-/

namespace LimitedBody

variable {H : Type}

/-! ### What a cap should do -/

/-- A stream under a cap: frames pass as long as their data is within the limit, then comes the
error, and no data after it. -/
structure CapsAt (limit : ℕ) (stream capped : Polls H) : Prop where
  longest : ∃ fits beyond, stream = fits ++ beyond ∧ Body.totalData fits ≤ limit ∧
    (beyond = [] ∧ capped = fits ∨
      ∃ bytes rest rest', beyond = .ok (.data bytes) :: rest ∧
        limit < Body.totalData fits + bytes.length ∧
        capped = fits ++ .error .bodyTooLarge :: rest' ∧ ∀ bytes', .ok (.data bytes') ∉ rest')
  delivered : Body.totalData capped ≤ limit

/-- No data frame ends over the limit with a counter within it. The counter is the total reduced to
64 bits, so it takes a total of `2 ^ 64` for that. -/
def NoWrap (limit : UInt64) (stream : Polls H) : Prop :=
  ∀ before bytes after, stream = before ++ .ok (.data bytes) :: after →
    limit.toNat < Body.totalData before + bytes.length →
    limit.toNat < (Body.totalData before + bytes.length) % 2 ^ 64

/-! ### The frames that pass -/

variable {limit : UInt64} {read : ℕ}

/-- A run of frames within the limit passes. -/
theorem polls_append {fits : Polls H} (h : read + Body.totalData fits ≤ limit.toNat)
    (beyond : Polls H) :
    polls limit (UInt64.ofNat read) (fits ++ beyond) =
      fits ++ polls limit (UInt64.ofNat (read + Body.totalData fits)) beyond := by
  induction fits generalizing read with
  | nil => rfl
  | cons answer rest ih =>
    match answer with
    | .error e => exact congrArg (.error e :: ·) (ih h)
    | .ok (.trailers headers) => exact congrArg (.ok (.trailers headers) :: ·) (ih h)
    | .ok (.data bytes) =>
      rw [Body.totalData, ← Nat.add_assoc] at h
      have hfits : read + bytes.length ≤ limit.toNat := by omega
      rw [List.cons_append, polls_data_of_le (by rwa [UInt64.mod_eq_of_le_toNat hfits]), ih h,
        Body.totalData, Nat.add_assoc]
      rfl

/-- The splits of a list at an element, by whether the element is the first one. -/
private theorem exists_split_cons {α : Type*} {P : List α → Prop} {a x : α} {xs : List α} :
    (∃ before after, a :: xs = before ++ x :: after ∧ P before) ↔
      x = a ∧ P [] ∨ ∃ before after, xs = before ++ x :: after ∧ P (a :: before) := by
  constructor
  · rintro ⟨before, after, hsplit, hP⟩
    rcases List.cons_eq_append_iff.1 hsplit with ⟨rfl, hcons⟩ | ⟨before, rfl, hxs⟩
    · exact .inl ⟨(List.cons.inj hcons).1, hP⟩
    · exact .inr ⟨before, after, hxs, hP⟩
  · rintro (⟨rfl, hP⟩ | ⟨before, after, rfl, hP⟩)
    · exact ⟨[], xs, rfl, hP⟩
    · exact ⟨a :: before, after, rfl, hP⟩

/-- A data frame passes if the counter is within the limit at its end. -/
theorem mem_polls_iff {stream : Polls H} {bytes : Bytes} :
    .ok (.data bytes) ∈ polls limit (UInt64.ofNat read) stream ↔
      ∃ before after, stream = before ++ .ok (.data bytes) :: after ∧
        (read + (Body.totalData before + bytes.length)) % 2 ^ 64 ≤ limit.toNat := by
  induction stream generalizing read with
  | nil => simp [polls]
  | cons answer rest ih =>
    rw [exists_split_cons (P := fun before ↦
      (read + (Body.totalData before + bytes.length)) % 2 ^ 64 ≤ limit.toNat)]
    rcases answer with e | first | headers
    · have hpoll : polls limit (UInt64.ofNat read) (.error e :: rest) =
          .error e :: polls limit (UInt64.ofNat read) rest := rfl
      rw [hpoll, List.mem_cons, ih]
      simp [Body.totalData]
    · have hrest : ∀ before, read + first.length + (Body.totalData before + bytes.length) =
          read + (Body.totalData (.ok (.data first) :: before : Polls H) + bytes.length) :=
        fun before ↦ by
          rw [Body.totalData]
          omega
      have hfirst : read + (Body.totalData ([] : Polls H) + first.length) = read + first.length :=
        congrArg _ (Nat.zero_add _)
      -- Over the limit, the counter keeps the sum but the bytes are not passed on.
      rcases Nat.lt_or_ge limit.toNat ((read + first.length) % 2 ^ 64) with hover | hwithin
      · rw [polls_data_of_lt hover, List.mem_cons, ih]
        simp only [hrest, reduceCtorEq, false_or]
        refine ⟨.inr, fun hor ↦ hor.resolve_left ?_⟩
        rintro ⟨heq, hle⟩
        cases heq
        rw [hfirst] at hle
        exact Nat.not_lt.2 hle hover
      · rw [polls_data_of_le hwithin, List.mem_cons, ih]
        simp only [hrest]
        refine or_congr ⟨fun heq ↦ ⟨heq, ?_⟩, And.left⟩ Iff.rfl
        cases heq
        rwa [hfirst]
    · have hpoll : polls limit (UInt64.ofNat read) (.ok (.trailers headers) :: rest) =
          .ok (.trailers headers) :: polls limit (UInt64.ofNat read) rest := rfl
      rw [hpoll, List.mem_cons, ih]
      simp [Body.totalData]

/-! ### The cap -/

/-- Every stream has a longest run of frames within a limit. -/
theorem exists_longest {limit total : ℕ} (h : total ≤ limit) (stream : Polls H) :
    ∃ fits beyond, stream = fits ++ beyond ∧ total + Body.totalData fits ≤ limit ∧
      (beyond = [] ∨ ∃ bytes rest, beyond = .ok (.data bytes) :: rest ∧
        limit < total + Body.totalData fits + bytes.length) := by
  induction stream generalizing total with
  | nil => exact ⟨[], [], rfl, h, .inl rfl⟩
  | cons answer rest ih =>
    match answer with
    | .error e =>
      obtain ⟨fits, beyond, rfl, hfits, hover⟩ := ih h
      exact ⟨.error e :: fits, beyond, rfl, hfits, hover⟩
    | .ok (.trailers headers) =>
      obtain ⟨fits, beyond, rfl, hfits, hover⟩ := ih h
      exact ⟨.ok (.trailers headers) :: fits, beyond, rfl, hfits, hover⟩
    | .ok (.data bytes) =>
      rcases Nat.lt_or_ge limit (total + bytes.length) with hcross | hle
      · exact ⟨[], _, rfl, h, .inr ⟨bytes, rest, rfl, hcross⟩⟩
      · obtain ⟨fits, beyond, rfl, hfits, hover⟩ := ih hle
        refine ⟨.ok (.data bytes) :: fits, beyond, rfl, ?_, ?_⟩
        · rwa [Body.totalData, ← Nat.add_assoc]
        · rwa [Body.totalData, ← Nat.add_assoc]

theorem totalData_append (xs ys : Polls H) :
    Body.totalData (xs ++ ys) = Body.totalData xs + Body.totalData ys := by
  induction xs with
  | nil => exact (Nat.zero_add _).symm
  | cons answer rest ih =>
    match answer with
    | .error _ => exact ih
    | .ok (.trailers _) => exact ih
    | .ok (.data bytes) =>
      rw [List.cons_append, Body.totalData, ih, Body.totalData, Nat.add_assoc]

/-- A stream without data frames delivers nothing. -/
theorem totalData_eq_zero {stream : Polls H} (h : ∀ bytes, .ok (.data bytes) ∉ stream) :
    Body.totalData stream = 0 := by
  induction stream with
  | nil => rfl
  | cons answer rest ih =>
    have hrest := ih fun bytes hmem ↦ h bytes (List.mem_cons_of_mem _ hmem)
    match answer with
    | .error _ => exact hrest
    | .ok (.trailers _) => exact hrest
    | .ok (.data bytes) => exact absurd List.mem_cons_self (h bytes)

/-- What fits passes, whatever comes behind it. -/
theorem polls_zero_append {fits : Polls H} (h : Body.totalData fits ≤ limit.toNat)
    (beyond : Polls H) :
    polls limit 0 (fits ++ beyond) =
      fits ++ polls limit (UInt64.ofNat (Body.totalData fits)) beyond := by
  have hzero : 0 + Body.totalData fits ≤ limit.toNat := by rwa [Nat.zero_add]
  have happend := polls_append hzero beyond
  rwa [Nat.zero_add] at happend

/-- A data frame that ends over the limit is not among answers that fit. -/
theorem exists_append_of_lt {limit : ℕ} {fits beyond before after : Polls H} {bytes : Bytes}
    (hfits : Body.totalData fits ≤ limit) (hover : limit < Body.totalData before + bytes.length)
    (h : fits ++ beyond = before ++ .ok (.data bytes) :: after) :
    ∃ between, before = fits ++ between ∧ beyond = between ++ .ok (.data bytes) :: after := by
  rcases List.append_eq_append_iff.1 h with ⟨between, hbefore, hbeyond⟩ | ⟨between, hfitsEq, hrest⟩
  · exact ⟨between, hbefore, hbeyond⟩
  · cases between with
    | nil => exact ⟨[], by rw [hfitsEq, List.append_nil, List.append_nil], hrest.symm⟩
    | cons answer between =>
      obtain ⟨rfl, -⟩ := List.cons.inj hrest
      rw [hfitsEq, totalData_append, Body.totalData] at hfits
      omega

/-- A cap lets no data frame pass that ends over the limit. -/
theorem noWrap_of_capsAt {stream : Polls H}
    (h : CapsAt limit.toNat stream (polls limit 0 stream)) : NoWrap limit stream := by
  intro before bytes after hsplit hover
  by_contra hwithin
  obtain ⟨fits, beyond, hstream, hfits, hcase⟩ := h.longest
  obtain ⟨between, hbefore, hover'⟩ :=
    exists_append_of_lt hfits hover (hstream.symm.trans hsplit)
  have hpasses : .ok (.data bytes) ∈
      polls limit (UInt64.ofNat (Body.totalData fits)) beyond := by
    refine mem_polls_iff.2 ⟨between, after, hover', ?_⟩
    rw [hbefore, totalData_append] at hwithin
    rw [← Nat.add_assoc]
    exact Nat.not_lt.1 hwithin
  have happend := polls_zero_append hfits beyond
  rw [← hstream] at happend
  rcases hcase with ⟨rfl, -⟩ | ⟨crossing, rest, rest', -, -, hcapped, hnone⟩
  · cases hpasses
  · rw [happend, List.append_cancel_left_eq] at hcapped
    rw [hcapped] at hpasses
    rcases List.mem_cons.1 hpasses with hfirst | hrest
    · cases hfirst
    · exact hnone bytes hrest

/-- Without a wrap the cap holds. -/
theorem capsAt_of_noWrap {stream : Polls H} (h : NoWrap limit stream) :
    CapsAt limit.toNat stream (polls limit 0 stream) := by
  obtain ⟨fits, beyond, rfl, hfits, hover⟩ := exists_longest (Nat.zero_le limit.toNat) stream
  rw [Nat.zero_add] at hfits
  rw [polls_zero_append hfits]
  rcases hover with rfl | ⟨bytes, rest, rfl, hcross⟩
  · refine ⟨⟨fits, [], rfl, hfits, .inl ⟨rfl, List.append_nil fits⟩⟩, ?_⟩
    rw [totalData_append]
    exact hfits
  · rw [Nat.zero_add] at hcross
    rw [polls_data_of_lt (h fits bytes rest rfl hcross)]
    have hnone : ∀ bytes', .ok (.data bytes') ∉
        polls limit (UInt64.ofNat (Body.totalData fits + bytes.length)) rest := by
      intro bytes' hmem
      obtain ⟨before, after, rfl, hwithin⟩ := mem_polls_iff.1 hmem
      have hwrap := h (fits ++ .ok (.data bytes) :: before) bytes' after (by simp)
      rw [totalData_append, Body.totalData] at hwrap
      replace hwrap := hwrap (by omega)
      have hsum : Body.totalData fits + bytes.length +
          (Body.totalData before + bytes'.length) =
          Body.totalData fits + (bytes.length + Body.totalData before) + bytes'.length := by
        omega
      rw [hsum] at hwithin
      exact Nat.not_lt.2 hwithin hwrap
    refine ⟨⟨fits, _, rfl, hfits, .inr ⟨bytes, rest, _, rfl, hcross, rfl, hnone⟩⟩, ?_⟩
    rw [totalData_append, Body.totalData, totalData_eq_zero hnone]
    exact hfits

/-- **When the cap holds**: no data frame ends over the limit with a counter within it. Whether a
frame passes is decided by the counter at its end, and the counter goes on counting behind the
error. -/
theorem capsAt_iff (limit : UInt64) (stream : Polls H) :
    CapsAt limit.toNat stream (polls limit 0 stream) ↔ NoWrap limit stream :=
  ⟨noWrap_of_capsAt, capsAt_of_noWrap⟩

/-! ### A wrapped counter -/

theorem totalData_replicate (n : ℕ) (bytes : Bytes) :
    Body.totalData (List.replicate n (.ok (.data bytes)) : Polls H) = n * bytes.length := by
  induction n with
  | zero => exact (Nat.zero_mul _).symm
  | succ n ih => rw [List.replicate_succ, Body.totalData, ih, Nat.succ_mul, Nat.add_comm]

/-- Chunks that wrap the counter to zero pass a cap of zero bytes. -/
theorem mem_polls_replicate {n : ℕ} {bytes : Bytes} (h : n * bytes.length = 2 ^ 64) :
    .ok (.data bytes) ∈ polls 0 0 (List.replicate n (.ok (.data bytes)) : Polls H) := by
  cases n with
  | zero => rw [Nat.zero_mul] at h; cases h
  | succ n =>
    have hmod : (0 + (Body.totalData (List.replicate n (.ok (.data bytes)) : Polls H) +
        bytes.length)) % 2 ^ 64 ≤ (0 : UInt64).toNat := by
      rw [totalData_replicate, ← Nat.succ_mul, h]
      exact Nat.le_refl 0
    exact mem_polls_iff.2 ⟨_, [], List.replicate_succ', hmod⟩

theorem le_totalData_of_mem {stream : Polls H} {bytes : Bytes}
    (h : .ok (.data bytes) ∈ stream) : bytes.length ≤ Body.totalData stream := by
  obtain ⟨before, after, rfl⟩ := List.append_of_mem h
  rw [totalData_append, Body.totalData]
  omega

/-- A chunk of 1 GiB. -/
private def gibibyte : Bytes :=
  List.replicate (2 ^ 30) 0

/-- Of `2 ^ 34` chunks of 1 GiB the last one passes a cap of zero bytes. -/
theorem not_capsAt_gibibytes :
    ¬CapsAt 0 (List.replicate (2 ^ 34) (.ok (.data gibibyte)) : Polls Unit)
      (polls 0 0 (List.replicate (2 ^ 34) (.ok (.data gibibyte)))) := by
  intro hcaps
  have hlength : gibibyte.length = 2 ^ 30 := List.length_replicate
  have hall : 2 ^ 34 * gibibyte.length = 2 ^ 64 := by
    rw [hlength]
    omega
  have hle := le_totalData_of_mem (mem_polls_replicate (H := Unit) hall)
  rw [hlength] at hle
  exact absurd (Nat.le_trans hle hcaps.delivered) (by omega)

end LimitedBody
