import Arvik.Core.Body

/-!
# The two ways to collect a body

`Body.toBytes` takes all data of a body, `Body.toBytesLimited` takes it up to a limit. Where they
should agree is said by `CollectsAlike`: up to the limit they give the same, and over it the
limited one reports the body as too large; and it never keeps more than the limit.

## Where they differ

There are two reasons for which they do not agree, and `collectsAlike_iff` says that there are no
others.

* *Trailers.* `Body.toBytes` skips a trailers frame, the limited reading takes it for an error
  (`TrailersMatter`). It goes unseen only if something else would have ended the reading with the
  same report.
* *The counter.* The frame that crosses the limit may bring the 64-bit counter to `2 ^ 64` and
  beyond, so that it starts again within the limit (`WrapsUnseen`). Then the reading goes on as if
  nothing had happened, and holds more than it may.

## How the proof goes

All statements about the loop are inductions over the polls with the total so far as a parameter.
Up to the frame that crosses the limit the total is within the limit, so the counter is the total,
and the loop is the one that counts in natural numbers. At that frame the loop either reports it
(`readFrames_of_lt`) or has wrapped; behind it nothing has to be followed.
-/

namespace Body

variable {H : Type}

/-! ### Agreement -/

/-- The data of all frames. -/
def totalData : Polls H → ℕ
  | [] => 0
  | .ok (.data bytes) :: rest => bytes.length + totalData rest
  | .ok (.trailers _) :: rest => totalData rest
  | .error _ :: rest => totalData rest

/-- The size hint is exact, or says nothing of an upper bound. -/
def ExactOrOpen (body : Body H) : Prop :=
  body.sizeHint = ⟨totalData body.polls, some (totalData body.polls)⟩ ∨
    body.sizeHint.upper = none

/-- A limited reading of a body is a whole reading up to the limit, reports a body over the limit,
and never keeps more data than the limit: what it keeps after some polls is what the loop answers
for these. -/
structure CollectsAlike (body : Body H) (limit : UInt64) : Prop where
  same : totalData body.polls ≤ limit.toNat →
    body.toBytesLimited limit = body.toBytes.mapError .read
  tooLarge : limit.toNat < received body.polls → body.toBytesLimited limit = .error .tooLarge
  /-- Of a body whose hint is over the limit nothing is read. -/
  held : body.sizeHint.upper.any (limit.toNat < ·) = false → ∀ polls frames,
    polls <+: body.polls → readFrames limit [] 0 polls = .ok frames →
    frames.flatten.length ≤ limit.toNat

/-! ### The loop -/

/-- The loop meets a trailers frame: before an error, and before the data crosses the limit. -/
def meetsTrailers (limit total : ℕ) : Polls H → Bool
  | [] => false
  | .error _ :: _ => false
  | .ok (.trailers _) :: _ => true
  | .ok (.data bytes) :: rest =>
    total + bytes.length ≤ limit && meetsTrailers limit (total + bytes.length) rest

/-- The data crosses the limit, before an error and before trailers, and the frame that crosses it
leaves a total that is within the limit modulo `2 ^ 64`. -/
def wrapsWithin (limit total : ℕ) : Polls H → Bool
  | [] => false
  | .error _ :: _ => false
  | .ok (.trailers _) :: _ => false
  | .ok (.data bytes) :: rest =>
    if total + bytes.length ≤ limit then wrapsWithin limit (total + bytes.length) rest
    else (total + bytes.length) % 2 ^ 64 ≤ limit

/-- The error the loop reports for trailers. -/
def unexpectedTrailer : BoxError :=
  .other "unexpected body trailer".toList

/-- The first error of a stream. -/
def firstError : Polls H → Option BoxError
  | [] => none
  | .error e :: _ => some e
  | .ok _ :: rest => firstError rest

variable {limit : UInt64} {total : ℕ} {frames : List Bytes} {polls : Polls H}

theorem received_le_totalData (polls : Polls H) : received polls ≤ totalData polls := by
  induction polls with
  | nil => exact Nat.le_refl 0
  | cons answer rest ih =>
    match answer with
    | .error _ => exact Nat.zero_le _
    | .ok (.trailers _) => exact ih
    | .ok (.data bytes) => exact Nat.add_le_add_left ih _

theorem collect_eq_error_iff {e : BoxError} :
    collect polls = .error e ↔ firstError polls = some e := by
  induction polls with
  | nil => simp [collect, firstError]
  | cons answer rest ih =>
    match answer with
    | .error _ => simp [collect, firstError]
    | .ok (.trailers _) => exact ih
    | .ok (.data bytes) =>
      rw [collect, firstError, ← ih]
      cases collect rest <;> simp [Except.map]

theorem readFrames_of_meetsTrailers (h : meetsTrailers limit.toNat total polls) :
    readFrames limit frames (UInt64.ofNat total) polls = .error (.read unexpectedTrailer) := by
  induction polls generalizing frames total with
  | nil => cases h
  | cons answer rest ih =>
    match answer with
    | .error _ => cases h
    | .ok (.trailers _) => rfl
    | .ok (.data bytes) =>
      obtain ⟨hfits, hrest⟩ := Bool.and_eq_true_iff.1 h
      have hle := of_decide_eq_true hfits
      rw [readFrames_data_of_le (by rwa [UInt64.mod_eq_of_le_toNat hle]), ih hrest]

/-- With neither trailers nor a wrap in its way, the loop crosses the limit if the data does. -/
theorem readFrames_of_lt (hmeets : meetsTrailers limit.toNat total polls = false)
    (hwraps : wrapsWithin limit.toNat total polls = false)
    (htotal : total ≤ limit.toNat) (h : limit.toNat < total + received polls) :
    readFrames limit frames (UInt64.ofNat total) polls = .error .tooLarge := by
  induction polls generalizing frames total with
  | nil => exact absurd h (Nat.not_lt.2 htotal)
  | cons answer rest ih =>
    match answer with
    | .error _ => exact absurd h (Nat.not_lt.2 htotal)
    | .ok (.trailers _) => cases hmeets
    | .ok (.data bytes) =>
      rw [wrapsWithin] at hwraps
      split at hwraps
      · next hfits =>
        rw [meetsTrailers, decide_eq_true hfits, Bool.true_and] at hmeets
        rw [received, ← Nat.add_assoc] at h
        rw [readFrames_data_of_le (by rwa [UInt64.mod_eq_of_le_toNat hfits])]
        exact ih hmeets hwraps hfits h
      · exact readFrames_data_of_lt (Nat.not_le.1 (of_decide_eq_false hwraps)) _ _

/-- Without trailers in its way, the loop reads data within the limit as the whole reading does. -/
theorem readFrames_of_le (hmeets : meetsTrailers limit.toNat total polls = false)
    (h : total + received polls ≤ limit.toNat) :
    (readFrames limit frames (UInt64.ofNat total) polls).map List.flatten =
      ((collect polls).mapError .read).map (frames.flatten ++ ·) := by
  induction polls generalizing frames total with
  | nil =>
    show Except.ok frames.flatten = .ok (frames.flatten ++ [])
    rw [List.append_nil]
  | cons answer rest ih =>
    match answer with
    | .error _ => rfl
    | .ok (.trailers _) => cases hmeets
    | .ok (.data bytes) =>
      rw [received, ← Nat.add_assoc] at h
      have hfits : total + bytes.length ≤ limit.toNat := by omega
      rw [meetsTrailers, decide_eq_true hfits, Bool.true_and] at hmeets
      rw [readFrames_data_of_le (by rwa [UInt64.mod_eq_of_le_toNat hfits]), ih hmeets h, collect]
      cases collect rest with
      | error e => rfl
      | ok data =>
        show Except.ok ((frames ++ [bytes]).flatten ++ data) =
          .ok (frames.flatten ++ (bytes ++ data))
        rw [List.flatten_concat, List.append_assoc]

/-- Without a wrap, what the loop keeps stays within the limit. The stream may be cut short: the
loop then has not come to the frame that wraps. -/
theorem length_flatten_le (hwraps : wrapsWithin limit.toNat total polls = false)
    (htotal : frames.flatten.length = total) (hle : total ≤ limit.toNat)
    {start : Polls H} (hstart : start <+: polls) {kept : List Bytes}
    (h : readFrames limit frames (UInt64.ofNat total) start = .ok kept) :
    kept.flatten.length ≤ limit.toNat := by
  induction start generalizing frames total polls with
  | nil =>
    rw [← Except.ok.inj h, htotal]
    exact hle
  | cons answer start ih =>
    obtain ⟨rest, rfl⟩ := hstart
    match answer with
    | .error _ => cases h
    | .ok (.trailers _) => cases h
    | .ok (.data bytes) =>
      rw [List.cons_append, wrapsWithin] at hwraps
      split at hwraps
      · next hfits =>
        rw [readFrames_data_of_le (by rwa [UInt64.mod_eq_of_le_toNat hfits])] at h
        refine ih hwraps ?_ hfits (List.prefix_append start rest) h
        rw [List.flatten_concat, List.length_append, htotal]
      · rw [readFrames_data_of_lt (Nat.not_le.1 (of_decide_eq_false hwraps))] at h
        cases h

/-- With a wrap, the loop at some point holds more than the limit. -/
theorem exists_lt_length_flatten (hwraps : wrapsWithin limit.toNat total polls)
    (htotal : frames.flatten.length = total) :
    ∃ start kept, start <+: polls ∧
      readFrames limit frames (UInt64.ofNat total) start = .ok kept ∧
      limit.toNat < kept.flatten.length := by
  induction polls generalizing frames total with
  | nil => cases hwraps
  | cons answer rest ih =>
    match answer with
    | .error _ => cases hwraps
    | .ok (.trailers _) => cases hwraps
    | .ok (.data bytes) =>
      have hkept : (frames ++ [bytes]).flatten.length = total + bytes.length := by
        rw [List.flatten_concat, List.length_append, htotal]
      rw [wrapsWithin] at hwraps
      split at hwraps
      · next hfits =>
        obtain ⟨start, kept, hstart, hread, hlt⟩ := ih hwraps hkept
        refine ⟨.ok (.data bytes) :: start, kept, List.prefix_cons_inj _ |>.2 hstart, ?_, hlt⟩
        rw [readFrames_data_of_le (by rwa [UInt64.mod_eq_of_le_toNat hfits]), hread]
      · next hcross =>
        refine ⟨[.ok (.data bytes)], frames ++ [bytes], ⟨rest, rfl⟩, ?_, ?_⟩
        · rw [readFrames_data_of_le (of_decide_eq_true hwraps), readFrames]
        · rw [hkept]
          exact Nat.not_le.1 hcross

/-- A stream of less than `2 ^ 64` bytes does not wrap the counter. -/
theorem wrapsWithin_eq_false {limit : ℕ} (h : total + received polls < 2 ^ 64) :
    wrapsWithin limit total polls = false := by
  induction polls generalizing total with
  | nil => rfl
  | cons answer rest ih =>
    match answer with
    | .error _ => rfl
    | .ok (.trailers _) => rfl
    | .ok (.data bytes) =>
      rw [received, ← Nat.add_assoc] at h
      rw [wrapsWithin]
      split
      · exact ih h
      · next hcross =>
        rw [Nat.mod_eq_of_lt (by omega)]
        exact decide_eq_false hcross

/-! ### When the two agree -/

/-- The limited reading comes to a trailers frame that matters: the data crosses the limit later
on, or is within it and the stream does not fail with the very error reported for trailers. -/
def TrailersMatter (body : Body H) (limit : UInt64) : Prop :=
  body.sizeHint.upper.any (limit.toNat < ·) = false ∧ meetsTrailers limit.toNat 0 body.polls ∧
    (limit.toNat < received body.polls ∨
      totalData body.polls ≤ limit.toNat ∧ firstError body.polls ≠ some unexpectedTrailer)

/-- The limited reading comes to a frame that crosses the limit, and its counter does not show
it. -/
def WrapsUnseen (body : Body H) (limit : UInt64) : Prop :=
  body.sizeHint.upper.any (limit.toNat < ·) = false ∧ wrapsWithin limit.toNat 0 body.polls

variable {body : Body H}

theorem toBytesLimited_of_hint (h : body.sizeHint.upper.any (limit.toNat < ·) = false) :
    body.toBytesLimited limit = (readFrames limit [] 0 body.polls).map List.flatten := by
  rw [toBytesLimited, h, if_neg Bool.false_ne_true]
  refine congrArg (Except.map · _) (funext fun frames ↦ ?_)
  rcases frames with - | ⟨frame, - | ⟨frame', frames⟩⟩
  · rfl
  · exact (List.append_nil frame).symm
  · rfl

/-- The hint is over the limit only if the data is. -/
theorem hint_of_totalData_le (h : body.ExactOrOpen) (htotal : totalData body.polls ≤ limit.toNat) :
    body.sizeHint.upper.any (limit.toNat < ·) = false := by
  rcases h with hexact | hopen
  · simp [hexact, htotal]
  · rw [hopen]
    rfl

/-- The trailers are reported, where the data is over the limit or read as a whole. -/
theorem CollectsAlike.not_trailersMatter (halike : body.CollectsAlike limit) :
    ¬body.TrailersMatter limit := by
  rintro ⟨hhint, hmeets, hcase⟩
  have hlimited : body.toBytesLimited limit = .error (.read unexpectedTrailer) := by
    rw [toBytesLimited_of_hint hhint]
    exact congrArg (Except.map List.flatten) (readFrames_of_meetsTrailers hmeets)
  rcases hcase with hover | ⟨hwithin, herror⟩
  · have htooLarge := halike.tooLarge hover
    rw [hlimited] at htooLarge
    cases htooLarge
  · have hsame := halike.same hwithin
    rw [hlimited, toBytes] at hsame
    refine herror (collect_eq_error_iff.1 ?_)
    cases hcollect : collect body.polls with
    | error e =>
      rw [hcollect] at hsame
      rw [BodyLimitError.read.inj (Except.error.inj hsame)]
    | ok bytes =>
      rw [hcollect] at hsame
      cases hsame

/-- Nothing over the limit is held, so the counter does not wrap. -/
theorem CollectsAlike.not_wrapsUnseen (halike : body.CollectsAlike limit) :
    ¬body.WrapsUnseen limit := by
  rintro ⟨hhint, hwraps⟩
  obtain ⟨start, kept, hstart, hread, hlt⟩ :=
    exists_lt_length_flatten hwraps (show ([] : List Bytes).flatten.length = 0 from rfl)
  exact Nat.not_lt.2 (halike.held hhint start kept hstart hread) hlt

/-- The counter of less than `2 ^ 64` bytes does not wrap. -/
theorem not_wrapsUnseen_of_lt (h : received body.polls < 2 ^ 64) : ¬body.WrapsUnseen limit := by
  rintro ⟨-, hwraps⟩
  rw [wrapsWithin_eq_false (by rwa [Nat.zero_add])] at hwraps
  cases hwraps

theorem toBytesLimited_of_totalData_le (h : body.ExactOrOpen) (hnot : ¬body.TrailersMatter limit)
    (hwithin : totalData body.polls ≤ limit.toNat) :
    body.toBytesLimited limit = body.toBytes.mapError .read := by
  have hhint := hint_of_totalData_le h hwithin
  rw [toBytesLimited_of_hint hhint, toBytes]
  cases hmeets : meetsTrailers limit.toNat 0 body.polls with
  | true =>
    -- the stream fails later on, with the text reported for trailers
    have herror : firstError body.polls = some unexpectedTrailer := by
      by_contra hne
      exact hnot ⟨hhint, hmeets, .inr ⟨hwithin, hne⟩⟩
    rw [collect_eq_error_iff.2 herror]
    exact congrArg (Except.map List.flatten) (readFrames_of_meetsTrailers hmeets)
  | false =>
    have hreceived : 0 + received body.polls ≤ limit.toNat := by
      rw [Nat.zero_add]
      exact Nat.le_trans (received_le_totalData _) hwithin
    refine (readFrames_of_le hmeets hreceived).trans ?_
    cases collect body.polls <;> rfl

theorem toBytesLimited_of_lt_received (hnot : ¬body.TrailersMatter limit)
    (hseen : ¬body.WrapsUnseen limit) (hover : limit.toNat < received body.polls) :
    body.toBytesLimited limit = .error .tooLarge := by
  cases hhint : body.sizeHint.upper.any (limit.toNat < ·) with
  | true => rw [toBytesLimited, hhint, if_pos rfl]
  | false =>
    cases hmeets : meetsTrailers limit.toNat 0 body.polls with
    | true => exact absurd ⟨hhint, hmeets, .inl hover⟩ hnot
    | false =>
      have hwraps : wrapsWithin limit.toNat 0 body.polls = false :=
        Bool.eq_false_iff.2 fun hwraps ↦ hseen ⟨hhint, hwraps⟩
      rw [toBytesLimited_of_hint hhint]
      exact congrArg (Except.map List.flatten)
        (readFrames_of_lt hmeets hwraps (Nat.zero_le _) (by rwa [Nat.zero_add]))

/-- **When the two ways to collect a body agree**: the limited one does not come to a trailers frame
that matters, nor to a frame over the limit that its counter does not show. -/
theorem collectsAlike_iff (h : body.ExactOrOpen) (limit : UInt64) :
    body.CollectsAlike limit ↔ ¬body.TrailersMatter limit ∧ ¬body.WrapsUnseen limit := by
  constructor
  · intro halike
    exact ⟨halike.not_trailersMatter, halike.not_wrapsUnseen⟩
  · rintro ⟨hnot, hseen⟩
    refine ⟨toBytesLimited_of_totalData_le h hnot, toBytesLimited_of_lt_received hnot hseen, ?_⟩
    intro hhint start kept hstart hread
    have hwraps : wrapsWithin limit.toNat 0 body.polls = false :=
      Bool.eq_false_iff.2 fun hwraps ↦ hseen ⟨hhint, hwraps⟩
    exact length_flatten_le hwraps (show ([] : List Bytes).flatten.length = 0 from rfl)
      (Nat.zero_le _) hstart hread

/-! ### A body with trailers -/

section Trailers

/-- One byte, and trailers behind it. -/
private def withTrailers : Body Unit where
  polls := [.ok (.data [1]), .ok (.trailers ())]

/-- The limited reading refuses a body of one byte with trailers. -/
theorem not_collectsAlike_withTrailers :
    withTrailers.ExactOrOpen ∧ ¬withTrailers.CollectsAlike 1 :=
  ⟨.inr rfl, fun halike ↦ absurd (halike.same (by decide)) (by decide)⟩

/-- Two bytes and an error. -/
private def failing : Body Unit where
  polls := [.ok (.data [1]), .ok (.data [2]), .error (.other "reset".toList)]

/-- Without trailers the two agree, over the limit and within it. -/
theorem collectsAlike_failing : failing.CollectsAlike 1 ∧ failing.CollectsAlike 2 := by
  have hshort : received failing.polls < 2 ^ 64 := by decide
  refine ⟨(collectsAlike_iff (.inr rfl) 1).2 ⟨?_, not_wrapsUnseen_of_lt hshort⟩,
    (collectsAlike_iff (.inr rfl) 2).2 ⟨?_, not_wrapsUnseen_of_lt hshort⟩⟩
  · rintro ⟨-, hmeets, -⟩
    cases hmeets
  · rintro ⟨-, hmeets, -⟩
    cases hmeets

end Trailers

end Body
