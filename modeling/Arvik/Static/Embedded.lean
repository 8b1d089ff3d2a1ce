import Arvik.Foundation.Memo
import Arvik.Static.Asset

/-!
# The metadata cache of embedded assets

The entity tag and the modification time of an embedded asset are computed once and kept in a cache
of the whole process (`embeddedMeta`). Every call for a path is answered from the first one that was
made for it; whether the file is still the same is not asked. Several services share the cache, and
two sets of assets may both have an `index.html`.

A call is correct (`CallCorrect`) if it returns the metadata of the file it is made for, and if
every request served from that metadata is answered, with the validators of that file.
`callsCorrect_iff` says which histories consist of correct calls: those in which calls for one path
pass one hash and one modification time, and no time is too late.

## Times that are too late

There are two panics. Past the range of the clock the metadata cannot be made, and as this happens
under the lock, the cache is poisoned and every later call panics too. Past the years of the date
library the metadata is made and kept, and every answer that names the time panics. So the second
kind does not show in what a call returns, only in what is served from it.

## How the proof goes

The cache is a memo table keyed by the path (`embeddedMeta_eq_request`), and about memo tables it is
known which runs return what was asked for (`Memo.results_eq_map_iff`). What remains is that the
metadata determines the hash and the time it was made of (`EmbeddedMeta.ofFacts_inj`).
-/

namespace Static

/-! ### Files and their validators -/

/-- An embedded file. -/
structure EmbeddedFile where
  data : Bytes
  sha256 : Vector UInt8 32
  /-- The modification time, in seconds since the epoch. -/
  lastModified : Option ℕ

/-- The two hexadecimal digits of a byte. -/
def hexByte (b : UInt8) : Str :=
  [Nat.digitChar (b.toNat / 16), Nat.digitChar (b.toNat % 16)]

/-- The text of the entity tag of a hash. -/
def etagText (hash : Vector UInt8 32) : Str :=
  '"' :: hash.toList.flatMap hexByte ++ ['"']

/-- A hexadecimal digit is visible, and determines its value. -/
theorem digitChar_visible_injective :
    ∀ d e : Fin 16, (32 ≤ (Nat.digitChar d).toNat ∧ (Nat.digitChar d).toNat < 127) ∧
      (Nat.digitChar d = Nat.digitChar e → d = e) := by
  decide

theorem etagText_visible (hash : Vector UInt8 32) :
    ∀ c ∈ etagText hash, 32 ≤ c.toNat ∧ c.toNat < 127 := by
  have hdigit : ∀ n, n < 16 → 32 ≤ (Nat.digitChar n).toNat ∧ (Nat.digitChar n).toNat < 127 :=
    fun n hn ↦ (digitChar_visible_injective ⟨n, hn⟩ 0).1
  intro c hc
  rcases List.mem_cons.1 hc with rfl | hc
  · decide
  · rcases List.mem_append.1 hc with hc | hc
    · obtain ⟨b, -, hb⟩ := List.mem_flatMap.1 hc
      have hlt := UInt8.toNat_lt b
      rcases List.mem_pair.1 hb with rfl | rfl
      · exact hdigit _ (by omega)
      · exact hdigit _ (by omega)
    · rw [List.mem_singleton.1 hc]
      decide

/-- The entity tag of an embedded file. -/
def embeddedEtag (hash : Vector UInt8 32) : HeaderValue where
  bytes := Text.utf8 (etagText hash)
  valid := List.all_eq_true.2 fun _ hb ↦
    (HeaderValue.visible_of_mem_utf8 (etagText_visible hash) hb).1

theorem hexByte_injective : Function.Injective hexByte := by
  intro b b' h
  have hlt := UInt8.toNat_lt b
  have hlt' := UInt8.toNat_lt b'
  obtain ⟨hhigh, hlow⟩ := List.cons.injEq .. ▸ h
  have hd := (digitChar_visible_injective ⟨b.toNat / 16, by omega⟩
    ⟨b'.toNat / 16, by omega⟩).2 hhigh
  have hd' := (digitChar_visible_injective ⟨b.toNat % 16, by omega⟩ ⟨b'.toNat % 16, by omega⟩).2
    (List.head_eq_of_cons_eq hlow)
  rw [Fin.mk.injEq] at hd hd'
  exact UInt8.toNat_inj.1 (by omega)

/-- The entity tag determines the hash. -/
theorem embeddedEtag_injective : Function.Injective embeddedEtag := by
  intro hash hash' h
  have htext : etagText hash = etagText hash' := Text.utf8_injective (congrArg HeaderValue.bytes h)
  have hflat : hash.toList.flatMap hexByte = hash'.toList.flatMap hexByte :=
    List.append_cancel_right (List.tail_eq_of_cons_eq htext)
  have hlist : ∀ xs ys : List UInt8, xs.flatMap hexByte = ys.flatMap hexByte → xs = ys := by
    intro xs
    induction xs with
    | nil =>
      rintro (- | ⟨y, ys⟩) hxy
      · rfl
      · cases hxy
    | cons x xs ih =>
      rintro (- | ⟨y, ys⟩) hxy
      · cases hxy
      · obtain ⟨hhead, htail⟩ := List.append_inj hxy rfl
        rw [hexByte_injective hhead, ih ys htail]
  exact Vector.toList_inj.1 (hlist _ _ hflat)

/-! ### The cache -/

/-- What is kept of a file. -/
structure EmbeddedMeta where
  modified : Option SystemTime
  etag : HeaderValue
  deriving DecidableEq

/-- The time a number of seconds after the epoch; past the range of the clock the addition
panics. -/
def sinceEpoch (seconds : ℕ) : Option SystemTime :=
  if seconds < 2 ^ 63 then some (.ofSeconds seconds) else none

/-- What there is to keep of a hash and a modification time, or a panic. -/
def EmbeddedMeta.ofFacts (sha256 : Vector UInt8 32) (lastModified : Option ℕ) :
    Option EmbeddedMeta :=
  match lastModified with
  | none => some ⟨none, embeddedEtag sha256⟩
  | some seconds => (sinceEpoch seconds).map fun time ↦ ⟨some time, embeddedEtag sha256⟩

/-- A call for the metadata of a file. -/
structure MetaCall where
  assetPath : Str
  file : EmbeddedFile
  /-- Another thread holds the lock of the cache when the call first tries for it. -/
  contended : Bool := false

/-- The metadata of the file a call is made for. -/
def MetaCall.own (call : MetaCall) : Option EmbeddedMeta :=
  EmbeddedMeta.ofFacts call.file.sha256 call.file.lastModified

/-- The metadata a call returns, or a panic. Concurrent calls are ordered by the moment they last
get hold of the lock: up to there they only read. -/
def embeddedMeta (cache : Memo Str EmbeddedMeta) (call : MetaCall) :
    Option EmbeddedMeta × Memo Str EmbeddedMeta :=
  -- hit path: `try_lock` fails on a contended lock, and on a poisoned one
  match if call.contended || cache.poisoned then none else cache.entries call.assetPath with
  | some found => (some found, cache)
  | none =>
    if cache.poisoned then (none, cache)
    else match cache.entries call.assetPath with
      | some found => (some found, cache)
      | none => match call.own with
        | some fresh => (some fresh, cache.insert call.assetPath fresh)
        -- the panic happens under the lock
        | none => (none, { cache with poisoned := true })

/-- The cache is a memo table keyed by the path alone. -/
theorem embeddedMeta_eq_request (cache : Memo Str EmbeddedMeta) (call : MetaCall) :
    embeddedMeta cache call = cache.request MetaCall.assetPath MetaCall.own call := by
  rw [embeddedMeta, Memo.request]
  split
  · next found hfound =>
    split at hfound
    · cases hfound
    · next hfree =>
      have hp : cache.poisoned = false := by
        simp only [Bool.or_eq_true, not_or, Bool.not_eq_true] at hfree
        exact hfree.2
      rw [if_neg (by simp [hp]), hfound]
  · rcases cache.entries call.assetPath with - | found
    · rcases call.own with - | fresh <;> rfl
    · rfl

/-- The metadata a history of calls returns. -/
def metas : Memo Str EmbeddedMeta → List MetaCall → List (Option EmbeddedMeta)
  | _, [] => []
  | cache, call :: history =>
    (embeddedMeta cache call).1 :: metas (embeddedMeta cache call).2 history

theorem metas_eq_results (cache : Memo Str EmbeddedMeta) (history : List MetaCall) :
    metas cache history = cache.results MetaCall.assetPath MetaCall.own history := by
  induction history generalizing cache with
  | nil => rfl
  | cons call history ih => rw [metas, Memo.results, embeddedMeta_eq_request, ih]

/-! ### What the metadata determines -/

theorem sinceEpoch_eq_some_iff {seconds : ℕ} {time : SystemTime} :
    sinceEpoch seconds = some time ↔ seconds < 2 ^ 63 ∧ .ofSeconds seconds = time := by
  rw [sinceEpoch, Option.ite_none_right_eq_some, Option.some.injEq]

/-- There is something to keep unless the time is too late for the clock. -/
theorem EmbeddedMeta.isSome_ofFacts_iff {sha256 : Vector UInt8 32} {lastModified : Option ℕ} :
    (ofFacts sha256 lastModified).isSome ↔ ∀ seconds ∈ lastModified, seconds < 2 ^ 63 := by
  rcases lastModified with - | seconds
  · exact iff_of_true rfl nofun
  · rw [ofFacts, Option.isSome_map, Option.isSome_iff_exists]
    simp only [sinceEpoch_eq_some_iff, Option.mem_some_iff, forall_eq', exists_and_left,
      exists_eq', and_true]

/-- What is kept determines the hash and the modification time. -/
theorem EmbeddedMeta.ofFacts_inj {sha256 sha256' : Vector UInt8 32}
    {lastModified lastModified' : Option ℕ} {kept : EmbeddedMeta}
    (h : ofFacts sha256 lastModified = some kept)
    (h' : ofFacts sha256' lastModified' = some kept) :
    sha256 = sha256' ∧ lastModified = lastModified' := by
  have hfacts : ∀ {sha256 : Vector UInt8 32} {lastModified : Option ℕ},
      ofFacts sha256 lastModified = some kept → embeddedEtag sha256 = kept.etag ∧
        lastModified.map .ofSeconds = kept.modified := by
    intro sha256 lastModified h
    rcases lastModified with - | seconds
    · rw [← Option.some.inj h]
      exact ⟨rfl, rfl⟩
    · obtain ⟨time, htime, rfl⟩ := Option.map_eq_some_iff.1 h
      exact ⟨rfl, congrArg some (sinceEpoch_eq_some_iff.1 htime).2⟩
  obtain ⟨hetag, hmodified⟩ := hfacts h
  obtain ⟨hetag', hmodified'⟩ := hfacts h'
  exact ⟨embeddedEtag_injective (hetag.trans hetag'.symm),
    Option.map_injective SystemTime.ofSeconds_injective (hmodified.trans hmodified'.symm)⟩

/-! ### Serving from the cache -/

section Serve

variable {H E B : Type} [Multimap H HeaderName HeaderValue] [Extensions E] [FromBytes B]
  [HttpDateLib]

/-- An embedded file with the metadata found for it. -/
def embeddedAsset (file : EmbeddedFile) (found : EmbeddedMeta) (contentType : HeaderValue)
    (contentEncoding : Option HeaderValue) (varyAcceptEncoding : Bool) : Asset B where
  len := file.data.length
  modified := found.modified
  etag := found.etag
  contentType := contentType
  contentEncoding := contentEncoding
  varyAcceptEncoding := varyAcceptEncoding
  whole := FromBytes.fromBytes file.data
  slice range := FromBytes.fromBytes ((file.data.take (range.stop + 1)).drop range.start)

/-- The response to a request for an embedded file, given the metadata found for it. -/
def serveEmbeddedAsset (file : EmbeddedFile) (found : EmbeddedMeta) (contentType : HeaderValue)
    (contentEncoding : Option HeaderValue) (varyAcceptEncoding : Bool) (req : Request H E B)
    (head : Bool) (cacheControl : Option HeaderValue) : Option (Response H E B) :=
  serveAsset (embeddedAsset file found contentType contentEncoding varyAcceptEncoding) req head
    cacheControl

variable (H E B) in
/-- A call is answered as it should be: it returns the metadata of the file it is made for, and
every request served from that metadata is answered, with the validators of that file. -/
def CallCorrect (call : MetaCall) (answer : Option EmbeddedMeta) : Prop :=
  ∃ found, answer = some found ∧ call.own = some found ∧
    ∀ (contentType : HeaderValue) (contentEncoding : Option HeaderValue) (vary : Bool)
      (req : Request H E B) (head : Bool) (cacheControl : Option HeaderValue),
      ∃ response : Response H E B,
        serveEmbeddedAsset call.file found contentType contentEncoding vary req head cacheControl =
          some response ∧
        Answers (embeddedEtag call.file.sha256)
          (call.file.lastModified.map .ofSeconds)
          (embeddedAsset call.file found contentType contentEncoding vary) req head response

/-- The modification time of a file, if there is one, is a date that can be formatted. -/
def EmbeddedFile.Formatted (file : EmbeddedFile) : Prop :=
  ∀ seconds ∈ file.lastModified, (HttpDateLib.fmt (.ofSeconds seconds)).isSome

omit [Multimap H HeaderName HeaderValue] [Extensions E] [FromBytes B] [HttpDateLib] in
/-- The metadata of a file consists of its own validators. -/
theorem MetaCall.own_eq_some {call : MetaCall} {found : EmbeddedMeta} (h : call.own = some found) :
    found.etag = embeddedEtag call.file.sha256 ∧
      found.modified = call.file.lastModified.map .ofSeconds := by
  rw [own] at h
  rcases hlast : call.file.lastModified with - | seconds
  · rw [hlast] at h
    rw [← Option.some.inj h]
    exact ⟨rfl, rfl⟩
  · rw [hlast] at h
    obtain ⟨time, htime, rfl⟩ := Option.map_eq_some_iff.1 h
    exact ⟨rfl, congrArg some (sinceEpoch_eq_some_iff.1 htime).2.symm⟩

omit [Multimap H HeaderName HeaderValue] [Extensions E] [FromBytes B] in
theorem EmbeddedFile.formatted_iff {file : EmbeddedFile} :
    file.Formatted ↔
      ((file.lastModified.map SystemTime.ofSeconds).mapM HttpDateLib.fmt).isSome := by
  rw [Formatted]
  rcases file.lastModified with - | seconds
  · exact iff_of_true nofun rfl
  · simp

/-- A request without headers. -/
def plainRequest : Request H E B where
  inner := ⟨.get, { path := ['/'] }, Multimap.empty, Extensions.empty, FromBytes.empty, .http11⟩
  extensions := Extensions.empty

/-- A call that returns the metadata of its file is answered as it should be, if the modification
time can be formatted; a request without conditions is answered with that time. -/
theorem callCorrect_iff {call : MetaCall} {answer : Option EmbeddedMeta} :
    CallCorrect H E B call answer ↔
      (call.own.isSome ∧ call.file.Formatted) ∧ call.own = answer := by
  constructor
  · rintro ⟨found, rfl, hown, hserve⟩
    refine ⟨⟨Option.isSome_of_eq_some hown, ?_⟩, hown⟩
    obtain ⟨response, hresponse, -⟩ :=
      hserve .textPlainUtf8 none false plainRequest false none
    have hplain : ∀ name ∈ conditionalHeaders,
        Multimap.get (plainRequest : Request H E B).headers name = none :=
      fun name _ ↦ congrArg List.head? (Multimap.getAll_empty (K := HeaderName) name)
    rw [serveEmbeddedAsset, serveAsset_of_unconditional hplain] at hresponse
    rw [EmbeddedFile.formatted_iff, ← (MetaCall.own_eq_some hown).2]
    exact isSome_respond_iff.1 (Option.isSome_of_eq_some hresponse)
  · rintro ⟨⟨hsome, hformatted⟩, rfl⟩
    obtain ⟨found, hown⟩ := Option.isSome_iff_exists.1 hsome
    refine ⟨found, hown, hown, fun contentType contentEncoding vary req head cacheControl ↦ ?_⟩
    obtain ⟨hetag, hmodified⟩ := MetaCall.own_eq_some hown
    rw [EmbeddedFile.formatted_iff, ← hmodified] at hformatted
    have hanswer : (serveEmbeddedAsset call.file found contentType contentEncoding vary req head
        cacheControl : Option (Response H E B)).isSome := isSome_serveAsset_iff.2 (.inl hformatted)
    obtain ⟨response, hresponse⟩ := Option.isSome_iff_exists.1 hanswer
    refine ⟨response, hresponse, ?_⟩
    rw [← hetag, ← hmodified]
    exact serveAsset_answers hresponse

/-- Every call of a history is answered as it should be exactly if calls for one path pass one hash
and one modification time, and no modification time is too late for the clock or for the date
library. -/
theorem callsCorrect_iff (history : List MetaCall) :
    List.Forall₂ (CallCorrect H E B) history (metas Memo.new history) ↔
      (∀ c ∈ history, ∀ d ∈ history, c.assetPath = d.assetPath →
        c.file.sha256 = d.file.sha256 ∧ c.file.lastModified = d.file.lastModified) ∧
      ∀ c ∈ history, (∀ seconds ∈ c.file.lastModified, seconds < 2 ^ 63) ∧ c.file.Formatted := by
  have hcorrect : CallCorrect H E B =
      fun call answer ↦ (call.own.isSome ∧ call.file.Formatted) ∧ call.own = answer :=
    funext₂ fun _ _ ↦ propext callCorrect_iff
  rw [hcorrect, List.forall₂_and_left, ← List.forall₂_map_left_iff (R := Eq),
    List.forall₂_eq_eq_eq, eq_comm, and_comm, metas_eq_results, forall₂_and, forall₂_and,
    ← and_assoc, ← and_assoc, Memo.results_eq_map_iff]
  refine and_congr_left fun _ ↦ ?_
  simp only [MetaCall.own, EmbeddedMeta.isSome_ofFacts_iff]
  refine and_congr_left fun hsome ↦ ?_
  refine forall₂_congr fun c hc ↦ forall₂_congr fun d hd ↦ imp_congr_right fun _ ↦ ?_
  constructor
  · intro hown
    obtain ⟨kept, hkept⟩ := Option.isSome_iff_exists.1
      (EmbeddedMeta.isSome_ofFacts_iff.2 (hsome c hc))
    exact EmbeddedMeta.ofFacts_inj hkept (hown ▸ hkept)
  · rintro ⟨hsha, hlast⟩
    rw [hsha, hlast]

end Serve

/-! ### Two index pages -/

section TwoPages

/-- A date library for assets without modification times. -/
local instance noDates : HttpDateLib where
  fmt _ := none
  parse _ := none
  fmt_visible := nofun

local instance plainBytes : FromBytes Bytes := ⟨[], id⟩

/-- The call for the `index.html` of a set of assets. -/
def indexPage (hash : UInt8) : MetaCall where
  assetPath := "index.html".toList
  file := ⟨[hash], Vector.replicate 32 hash, none⟩

/-- Of two sets of assets with an `index.html` each, the second is served with the entity tag of the
first. -/
theorem second_index_page_not_correct :
    ¬ List.Forall₂ (CallCorrect (AssocList HeaderName HeaderValue) (Option Unit) Bytes)
      [indexPage 0, indexPage 1] (metas Memo.new [indexPage 0, indexPage 1]) := by
  intro h
  have hsecond := (List.forall₂_cons.1 (List.forall₂_cons.1 h).2).1
  exact absurd (callCorrect_iff.1 hsecond).2 (by decide)

end TwoPages

end Static
